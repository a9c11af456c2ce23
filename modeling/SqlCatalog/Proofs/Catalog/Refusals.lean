import SqlCatalog.Proofs.Catalog.Reachable

/-!
# Refusals

A statement that is refused leaves no trace in the schema, whichever of its parts is at fault. A
script is compiled statement by statement, so that one that is refused leaves what the statements
before the fault made, and a source that cannot be cut into statements leaves nothing.

## Main definitions

* `Compiling.Atomic` says that compiling is done as a whole or not at all.

## Main statements

* `compileScript_refused_iff`: where a script stops, and what it leaves.
* `refusals_atomic`: statements are atomic, and sources commit what stands before the fault.
-/

namespace SqlCatalog

namespace Compiling

variable {α : Type} {x : Compiling α}

/-- Whether compiling leaves every schema that it is refused for as it was. -/
def Atomic (x : Compiling α) : Prop := ∀ s e s', x.into s = (.error e, s') → s' = s

/-- What is refused without a change or yields something is atomic. -/
theorem Atomic.of_yields {P : Schema → α → Schema → Prop} (h : ∀ s, x.Yields s (P s)) :
    x.Atomic := by
  intro s e s' hx
  have hs := h s
  rw [Yields, hx] at hs
  exact hs

end Compiling

open Compiling (Atomic)

/-- A statement that is refused changes nothing. -/
theorem atomic_compileStatement (statement : Statement) : (compileStatement statement).Atomic := by
  intro s e s' h
  rw [into_compileStatement] at h
  cases hkind : StatementKind.of statement with
  | error cause =>
    rw [hkind] at h
    exact (Prod.mk.inj h).2.symm
  | ok kind =>
    rw [hkind] at h
    exact Atomic.of_yields (fun _ => yields_compile kind) s e s' h

/-! ## Scripts -/

variable {s s' : Schema} {e : CompileError}

/-- A script is refused exactly if one of its statements is refused for the schema that those
before it make; that schema is what the script leaves. -/
theorem compileScript_refused_iff {script : List Statement} :
    (compileScript script).into s = (.error e, s') ↔
      ∃ done statement rest, script = done ++ statement :: rest ∧
        (compileScript done).into s = (.ok ⟨⟩, s') ∧
          (compileStatement statement).into s' = (.error e, s') := by
  induction script generalizing s with
  | nil =>
    constructor
    · intro h
      cases h
    · rintro ⟨done, statement, rest, h, -⟩
      cases done <;> cases h
  | cons first script ih =>
    rw [into_compileScript_cons]
    constructor
    · intro h
      rcases hfirst : (compileStatement first).into s with ⟨cause | ⟨⟩, s₁⟩ <;> rw [hfirst] at h
      · -- The first statement is refused, and being atomic it leaves the schema as it was.
        obtain ⟨hcause, rfl⟩ := Prod.mk.inj h
        obtain rfl := Except.error.inj hcause
        obtain rfl := atomic_compileStatement first s cause _ hfirst
        exact ⟨[], first, script, rfl, rfl, hfirst⟩
      · obtain ⟨done, statement, rest, rfl, hdone, hstatement⟩ := ih.1 h
        refine ⟨first :: done, statement, rest, rfl, ?_, hstatement⟩
        rw [into_compileScript_cons, hfirst]
        exact hdone
    · rintro ⟨_ | ⟨_, done⟩, statement, rest, hscript, hdone, hstatement⟩
      · obtain ⟨rfl, rfl⟩ := List.cons.inj hscript
        obtain rfl : s = s' := (Prod.mk.inj hdone).2
        rw [hstatement]
      · obtain ⟨rfl, rfl⟩ := List.cons.inj hscript
        rw [into_compileScript_cons] at hdone
        rcases hfirst : (compileStatement first).into s with ⟨cause | ⟨⟩, s₁⟩ <;>
          rw [hfirst] at hdone
        · cases hdone
        · exact ih.2 ⟨done, statement, rest, rfl, hdone, hstatement⟩

/-- A statement of any kind that is refused leaves the schema as it was. A source that is refused
cannot be cut into statements and leaves the schema as it was, or one of its statements is refused
and what it leaves is what the statements before that one make. -/
theorem refusals_atomic :
    (∀ statement, (compileTable statement).Atomic ∧ (compileIndex statement).Atomic ∧
      (compileSequence statement).Atomic ∧ (compileSeedRow statement).Atomic ∧
        (compileStatement statement).Atomic) ∧
    ∀ text s e s', (compileSource text).into s = (.error e, s') ↔
      (∃ cause, statements text = .error cause ∧ e = .lex cause ∧ s' = s) ∨
        ∃ done statement rest, statements text = .ok (done ++ statement :: rest) ∧
          (compileScript done).into s = (.ok ⟨⟩, s') ∧
            (compileStatement statement).into s' = (.error e, s') := by
  refine ⟨fun statement => ⟨.of_yields fun _ => yields_compileTable,
    .of_yields fun _ => yields_compileIndex, .of_yields fun _ => yields_compileSequence,
    .of_yields fun _ => yields_compileSeedRow, atomic_compileStatement statement⟩, ?_⟩
  intro text s e s'
  rw [into_compileSource]
  cases statements text with
  | error cause =>
    constructor
    · intro h
      obtain ⟨hcause, rfl⟩ := Prod.mk.inj h
      exact .inl ⟨cause, rfl, (Except.error.inj hcause).symm, rfl⟩
    · rintro (⟨_, h, rfl, rfl⟩ | ⟨_, _, _, h, -⟩)
      · rw [Except.error.inj h]
      · cases h
  | ok script =>
    show (compileScript script).into s = (.error e, s') ↔ _
    rw [compileScript_refused_iff]
    constructor
    · rintro ⟨done, statement, rest, rfl, h⟩
      exact .inr ⟨done, statement, rest, rfl, h⟩
    · rintro (⟨_, h, -⟩ | ⟨done, statement, rest, h, hrest⟩)
      · cases h
      · exact ⟨done, statement, rest, Except.ok.inj h, hrest⟩

/-- A source whose second statement names a sequence that is there already. -/
def takenName : String := "create sequence a; create sequence A; create sequence b"

theorem statements_takenName : (statements takenName).isOk = true := by decide +kernel

theorem into_takenName : ((compileSource takenName).into (.empty "" .standard)).1.isOk = false ∧
    ((compileSource takenName).into (.empty "" .standard)).2.sequences = [⟨0, "a", []⟩] := by
  decide +kernel

/-- The sequence before the name that is taken stays, and nothing after it is compiled. -/
theorem refusals_atomic_takenName :
    ∃ done statement rest, statements takenName = .ok (done ++ statement :: rest) ∧
      ((compileScript done).into (.empty "" .standard)).2.sequences = [⟨0, "a", []⟩] := by
  obtain ⟨hrefused, hleft⟩ := into_takenName
  rcases h : (compileSource takenName).into (.empty "" .standard) with ⟨e | ⟨⟩, s'⟩ <;>
    rw [h] at hrefused hleft
  · rcases (refusals_atomic.2 _ _ _ _).1 h with
      ⟨cause, hcut, -⟩ | ⟨done, statement, rest, hcut, hdone, -⟩
    · have hok := statements_takenName
      rw [hcut] at hok
      cases hok
    · exact ⟨done, statement, rest, hcut, by rw [hdone, hleft]⟩
  · cases hrefused

end SqlCatalog
