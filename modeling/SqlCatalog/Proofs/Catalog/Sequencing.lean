import SqlCatalog.Proofs.Catalog.Reachable
import SqlCatalog.Proofs.Definition.Drafts
import SqlCatalog.Proofs.Token.Borders

/-!
# Compiling one source after another

A source that goes on with a semicolon and another source is compiled as the two are, one after the
other. Nothing of the first source reaches the second one: neither a comment or a name that is cut
off, nor a level that is a list. All that can differ is which tokens the refusal of a statement of
no kind shows, since a source that is one list as a whole is shown as that list.

## Main definitions

* `CompileError.withoutBeginning` leaves these tokens out.
* `Compiling.Alike` says that two ways of compiling make the same schema and the same error.

## Main statements

* `alike_compileStatement`: a statement that a semicolon follows is compiled as without it.
* `compileSource_append`: compiling a concatenation is compiling in sequence.
-/

namespace SqlCatalog

/-! ## Compiling alike -/

/-- An error without the tokens that an unsupported statement begins with. -/
def CompileError.withoutBeginning : CompileError → CompileError
  | unsupported _ => unsupported []
  | e => e

namespace Compiling

variable {α : Type} {x y z : Compiling α}

/-- Whether compiling leaves the same schema and gives the same or the same error, but for the
tokens that an unsupported statement begins with. -/
def Alike (x y : Compiling α) : Prop :=
  ∀ s, (x.into s).2 = (y.into s).2 ∧
    (x.into s).1.mapError CompileError.withoutBeginning =
      (y.into s).1.mapError CompileError.withoutBeginning

theorem Alike.refl (x : Compiling α) : x.Alike x := fun _ => ⟨rfl, rfl⟩

theorem Alike.trans (h : x.Alike y) (h' : y.Alike z) : x.Alike z :=
  fun s => ⟨(h s).1.trans (h' s).1, (h s).2.trans (h' s).2⟩

theorem Alike.symm (h : x.Alike y) : y.Alike x := fun s => ⟨(h s).1.symm, (h s).2.symm⟩

/-- Parts that compile alike compile alike together. -/
theorem Alike.bind {β : Type} {f g : α → Compiling β} (h : x.Alike y)
    (hf : ∀ a, (f a).Alike (g a)) : (x >>= f).Alike (y >>= g) := by
  intro s
  obtain ⟨hschema, hgiven⟩ := h s
  rw [into_bind, into_bind]
  generalize x.into s = r at hschema hgiven ⊢
  generalize y.into s = r' at hschema hgiven ⊢
  obtain ⟨e | a, s₁⟩ := r <;> obtain ⟨e' | b, s₂⟩ := r' <;> obtain rfl : s₁ = s₂ := hschema
  · have he : e.withoutBeginning = e'.withoutBeginning := Except.error.inj hgiven
    exact ⟨rfl, congrArg Except.error he⟩
  · cases hgiven
  · cases hgiven
  · obtain rfl : a = b := Except.ok.inj hgiven
    exact hf a s₁

end Compiling

open Compiling (Alike)

/-! ## Statements -/

section Statements

variable {statement statement' : Statement}

/-- What a statement is compiled to depends on its flat tokens and its leading comment. -/
theorem compileStatement_congr
    (hkind : statement.filter Token.isSignificant = statement'.filter Token.isSignificant)
    (hflat : Token.flatten statement = Token.flatten statement')
    (hcomment : leadingComment statement = leadingComment statement') :
    compileStatement statement = compileStatement statement' := by
  have hread (s : Schema) : s.readTable statement = s.readTable statement' := by
    simp only [Schema.readTable, hflat, hcomment]
  have hcompile (kind : StatementKind) : kind.compile statement = kind.compile statement' := by
    cases kind with
    | table => simp only [StatementKind.compile, compileTable, hread]
    | sequence => simp only [StatementKind.compile, compileSequence, hflat]
    | index => simp only [StatementKind.compile, compileIndex, hflat]
    | seedRow => simp only [StatementKind.compile, compileSeedRow, hflat]
    | blank => rfl
  have hof : StatementKind.of statement = StatementKind.of statement' := by
    simp only [StatementKind.of, hkind]
  simp only [compileStatement, hof, hcompile]

/-- The text of a comment is the same with and without the line feed at its end. -/
theorem text_comment_line (raw : String) :
    (Token.comment (raw ++ "\n")).text = (Token.comment raw).text := by
  have hblank : isBlank '\n' = true := by decide
  simp [Token.text, trimEnd, trimEndChars, hblank]

/-- The end of the last line does not change what a statement does. -/
theorem compileStatement_of_endsInLine (h : EndsInLine statement statement') :
    compileStatement statement = compileStatement statement' := by
  rcases h with rfl | ⟨before, raw, rfl, rfl⟩
  · rfl
  · have hcomment : leadingComment (before ++ [.comment raw]) =
        leadingComment (before ++ [.comment (raw ++ "\n")]) := by
      have htext := text_comment_line raw
      simp only [leadingComment, List.takeWhile_append]
      split <;> simp [Token.isSignificant, htext]
    refine compileStatement_congr ?_ ?_ hcomment
    · simp [Token.isSignificant]
    · rw [Phrase.flatten_append, Phrase.flatten_append]
      rfl

/-- No statement begins with an item of a list. -/
theorem kind_of_isItem {first : Token} {rest : List Token}
    (hfilter : statement.filter Token.isSignificant = first :: rest)
    (hfirst : first.isItem = true) :
    ∃ beginning, StatementKind.of statement = .error (.unsupported beginning) := by
  have hnot {word : String} (hword : word = "CREATE" ∨ word = "INSERT") :
      first.isKeyword word = false := by
    cases first with
    | keyword k =>
      simp only [Token.isItem, Bool.or_eq_true] at hfirst
      rcases hfirst with (hnull | htrue) | hfalse
      · exact isKeyword_eq_false hnull (by rcases hword with rfl | rfl <;> decide +kernel)
      · exact isKeyword_eq_false htrue (by rcases hword with rfl | rfl <;> decide +kernel)
      · exact isKeyword_eq_false hfalse (by rcases hword with rfl | rfl <;> decide +kernel)
    | _ => rfl
  have hcreate := hnot (.inl rfl)
  have hinsert := hnot (.inr rfl)
  simp only [StatementKind.of, hfilter, hcreate, hinsert]
  exact ⟨_, rfl⟩

/-- A statement that a semicolon follows is compiled as it is without the semicolon. -/
theorem alike_compileStatement (h : BeforeSemicolon statement statement') :
    (compileStatement statement).Alike (compileStatement statement') := by
  cases h with
  | line h => rw [compileStatement_of_endsInLine h]; exact .refl _
  | @list items items' hlist h =>
    rw [← compileStatement_of_endsInLine h]
    -- Neither the list nor its items begin a statement.
    have hsignificant : ∃ first rest, items.filter Token.isSignificant = first :: rest ∧
        first.isItem = true := by
      rw [isListLevel, Bool.and_eq_true] at hlist
      revert hlist
      cases items.filter Token.isSignificant with
      | nil => simp [isCommaSeparated]
      | cons first rest =>
        intro hlist
        refine ⟨first, rest, rfl, ?_⟩
        cases rest with
        | nil => exact hlist.2
        | cons comma rest =>
          simp only [isCommaSeparated, Bool.and_eq_true] at hlist
          exact hlist.2.1.1
    obtain ⟨first, rest, hfilter, hfirst⟩ := hsignificant
    obtain ⟨beginning, hitems⟩ := kind_of_isItem hfilter hfirst
    have hwhole : StatementKind.of [.list items] = .error (.unsupported [.list items]) := rfl
    intro s
    rw [into_compileStatement, into_compileStatement, hitems, hwhole]
    exact ⟨rfl, rfl⟩

end Statements

/-! ## Scripts -/

/-- Scripts that differ in what stands before their semicolons compile alike. -/
theorem alike_compileScript {script script' : List Statement}
    (h : List.Forall₂ BeforeSemicolon script script') :
    (compileScript script).Alike (compileScript script') := by
  induction h with
  | nil => exact .refl _
  | cons hstatement _ ih => exact (alike_compileStatement hstatement).bind fun _ => ih

/-- Two scripts are compiled one after the other. -/
theorem compileScript_append (script rest : List Statement) :
    compileScript (script ++ rest) = (compileScript script >>= fun _ => compileScript rest) :=
  List.forM_append

/-- Statements without tokens change nothing. -/
theorem alike_compileScript_empty {empty : List Statement}
    (h : ∀ statement ∈ empty, statement = []) (script : List Statement) :
    (compileScript (empty ++ script)).Alike (compileScript script) := by
  induction empty with
  | nil => exact .refl _
  | cons statement empty ih =>
    obtain ⟨rfl, hempty⟩ := List.forall_mem_cons.1 h
    intro s
    rw [List.cons_append, into_compileScript_cons]
    exact ih hempty s

/-! ## Sources -/

/-- Compiling a source that goes on with a semicolon and another source leaves the schema that
compiling the one and, if that is done, the other leaves, and is done or refused with the same
error; where it is a statement of no kind that is refused, the tokens shown may differ. -/
theorem compileSource_append (s : Schema) (a b : String) (ha : (statements a).isOk = true)
    (hb : (statements b).isOk = true) :
    let joined := (compileSource (a ++ "\n;\n" ++ b)).into s
    let inTurn := Compiling.into (do compileSource a; compileSource b) s
    joined.2 = inTurn.2 ∧
      joined.1.mapError CompileError.withoutBeginning =
        inTurn.1.mapError CompileError.withoutBeginning := by
  have script {source : String} {statements' : List Statement}
      (h : statements source = .ok statements') :
      (compileSource source).Alike (compileScript statements') := by
    intro s
    rw [into_compileSource, h]
    exact ⟨rfl, rfl⟩
  cases hfirst : statements a with
  | error e => rw [hfirst] at ha; cases ha
  | ok first =>
    cases hsecond : statements b with
    | error e => rw [hsecond] at hb; cases hb
    | ok second =>
      obtain ⟨first', empty, second', hjoined, hfirst', hempty, hsecond'⟩ :=
        statements_append hfirst hsecond
      have hboth : (compileScript (first' ++ empty ++ second')).Alike
          (compileScript first' >>= fun _ => compileScript second') := by
        rw [List.append_assoc, compileScript_append]
        exact (Alike.refl _).bind fun _ => alike_compileScript_empty hempty second'
      have hbefore : (compileSource a >>= fun _ => compileSource b).Alike
          (compileScript first' >>= fun _ => compileScript second') :=
        ((script hfirst).trans (alike_compileScript hfirst')).bind fun _ =>
          (script hsecond).trans (alike_compileScript hsecond')
      exact ((script hjoined).trans hboth).trans hbefore.symm s

/-- A source whose last line is a comment that is cut off, and one that is a list as a whole. -/
theorem compileSource_append_list :
    let a := "create table t (x integer) -- the last line"
    let b := "-- nothing\na, b"
    let joined := (compileSource (a ++ "\n;\n" ++ b)).into (.empty "" .standard)
    let inTurn := Compiling.into (do compileSource a; compileSource b) (.empty "" .standard)
    joined.2 = inTurn.2 ∧
      joined.1.mapError CompileError.withoutBeginning =
        inTurn.1.mapError CompileError.withoutBeginning :=
  compileSource_append (.empty "" .standard) _ _ (by decide +kernel) (by decide +kernel)

end SqlCatalog
