import Mathlib.Data.List.Perm.Basic
import SqlCatalog.Proofs.Definition.ItemTokens
import SqlCatalog.Proofs.Lists

/-!
# Runs of clauses

Each clause of a column is a run of tokens whose layout follows from its first tokens, whatever
stands in the place of a check, of a default or of a table. So what follows the type of a column is
cut into clauses in one way only, and the clauses are spelled run by run, in whatever order the runs
stand.

## Main definitions

* `ClauseKind` lists the kinds of clauses, and `ClauseKind.Shape` says how they are laid out.
* `BeginsColumn` says which tokens stand before the clauses of a column.
* `Reordered` relates parts of a body that differ in the order of the clauses of a column, none of
  whose kinds occurs twice.

## Main statements

* `ClauseKind.Shape.eq_of_append`: where a clause begins, its kind and its end are known.
* `spellsClauses_flatten_iff`: clauses are spelled run by run.
* `spelled_of_reordered`: the parts of a body are spelled in every order of their clauses.
-/

namespace SqlCatalog

/-! ## Kinds of clauses -/

/-- The kinds of clauses. -/
inductive ClauseKind where
  | primaryKey
  | unique
  | notNull
  | null
  | check
  | default
  | references
  | onDelete
deriving DecidableEq

/-- The kind of a clause. -/
def ClauseSyntax.kind : ClauseSyntax → ClauseKind
  | primaryKey => .primaryKey
  | unique => .unique
  | notNull => .notNull
  | null => .null
  | check _ => .check
  | default _ => .default
  | references _ => .references
  | onDelete _ => .onDelete

namespace ClauseKind

/-- The keyword that clauses of a kind begin with. -/
def word : ClauseKind → String
  | primaryKey => "PRIMARY"
  | unique => "UNIQUE"
  | notNull => "NOT"
  | null => "NULL"
  | check => "CHECK"
  | default => "DEFAULT"
  | references => "REFERENCES"
  | onDelete => "ON"

/-- What stands after the first keyword of a clause of the kind, where a check is any parenthesis,
and a default and a table are any token. -/
inductive Rest : ClauseKind → List Token → Prop
  | primaryKey {ts : List Token} (h : SpellsWords ["KEY"] ts) : Rest .primaryKey ts
  | unique : Rest .unique []
  | notNull {ts : List Token} (h : SpellsWords ["NULL"] ts) : Rest .notNull ts
  | null : Rest .null []
  | check (inner : List Token) : Rest .check [.paren inner]
  | default (t : Token) : Rest .default [t]
  | references (t : Token) : Rest .references [t]
  | onDelete {action : DeleteAction} {ts : List Token}
      (h : SpellsWords ("DELETE" :: action.words) ts) : Rest .onDelete ts

/-- The tokens are laid out as a clause of the kind. -/
inductive Shape (kind : ClauseKind) : List Token → Prop
  | mk {k : Token} {ts : List Token} (hk : k.isKeyword kind.word = true) (hts : kind.Rest ts) :
      Shape kind (k :: ts)

section Shapes

variable {a b : ClauseKind} {r r' us us' : List Token}

theorem word_mem_clauseWords (kind : ClauseKind) : kind.word ∈ clauseWords := by
  cases kind <;> decide

/-- Clauses of different kinds begin with different keywords. -/
theorem eq_of_isKeyword {k : Token} (ha : k.isKeyword a.word = true)
    (hb : k.isKeyword b.word = true) : a = b := by
  have hsame : sameIgnoringAsciiCase a.word b.word = true := by
    rwa [isKeyword_of_isKeyword ha] at hb
  revert hsame
  cases a <;> cases b <;> decide +kernel

/-- A run of the shape of a kind begins with a keyword that starts a clause. -/
theorem Shape.startsClause (h : a.Shape r) : ∃ k ts, r = k :: ts ∧ k.startsClause = true := by
  obtain ⟨hk, -⟩ := h
  exact ⟨_, _, rfl, Token.startsClause_of_isKeyword hk a.word_mem_clauseWords⟩

theorem length_of_spellsWords {words : List String} {ts : List Token} (h : SpellsWords words ts) :
    ts.length = words.length :=
  (List.Forall₂.length_eq h).symm

/-- Actions that begin with the same token have the same number of keywords. -/
theorem length_words_eq {action action' : DeleteAction} {ts ts' : List Token}
    (h : SpellsWords action.words ts) (h' : SpellsWords action'.words ts')
    (heq : ts ++ us = ts' ++ us') : ts.length = ts'.length := by
  -- Only `CASCADE` stands alone, and no other action begins with it.
  cases action <;> cases action' <;> first
    | exact (length_of_spellsWords h).trans (length_of_spellsWords h').symm
    | obtain ⟨t, _, rfl, ht, -⟩ := spellsWords_cons.1 h
      obtain ⟨t', _, rfl, ht', -⟩ := spellsWords_cons.1 h'
      obtain ⟨rfl, -⟩ := List.cons.inj heq
      rw [isKeyword_eq_false ht (by decide +kernel)] at ht'
      cases ht'

/-- What follows the first keyword of a clause ends in one place only. -/
theorem Rest.eq_of_append (h : a.Rest r) (h' : a.Rest r') (heq : r ++ us = r' ++ us') :
    r = r' ∧ us = us' := by
  refine List.append_inj heq ?_
  cases h with
  | primaryKey h =>
    cases h' with
    | primaryKey h' => rw [length_of_spellsWords h, length_of_spellsWords h']
  | notNull h =>
    cases h' with
    | notNull h' => rw [length_of_spellsWords h, length_of_spellsWords h']
  | unique | null | check | default | references =>
    cases h'
    rfl
  | onDelete h =>
    cases h' with
    | onDelete h' =>
      obtain ⟨t, ts, rfl, -, h⟩ := spellsWords_cons.1 h
      obtain ⟨t', ts', rfl, -, h'⟩ := spellsWords_cons.1 h'
      rw [List.length_cons, List.length_cons,
        length_words_eq h h' (List.cons.inj heq).2]

/-- Where a clause begins, its kind and its end are known. -/
theorem Shape.eq_of_append (h : a.Shape r) (h' : b.Shape r') (heq : r ++ us = r' ++ us') :
    a = b ∧ r = r' ∧ us = us' := by
  obtain ⟨hk, hrest⟩ := h
  obtain ⟨hk', hrest'⟩ := h'
  obtain ⟨rfl, hmore⟩ := List.cons.inj heq
  obtain rfl := eq_of_isKeyword hk hk'
  obtain ⟨rfl, rfl⟩ := hrest.eq_of_append hrest' hmore
  exact ⟨rfl, rfl, rfl⟩

end Shapes

end ClauseKind

section Clauses

variable {ts : List Token} {kinds : List ClauseKind} {runs runs' : List (List Token)}
  {cs : List ClauseSyntax}

/-- A clause is laid out as one of its kind. -/
theorem ClauseSyntax.Spelled.shape {c : ClauseSyntax} (h : c.Spelled ts) : c.kind.Shape ts := by
  cases h with
  | primaryKey h =>
    obtain ⟨k, us, rfl, hk, hus⟩ := spellsWords_cons.1 h
    exact .mk hk (.primaryKey hus)
  | unique h =>
    obtain ⟨k, rfl, hk⟩ := spellsWords_singleton.1 h
    exact .mk hk .unique
  | notNull h =>
    obtain ⟨k, us, rfl, hk, hus⟩ := spellsWords_cons.1 h
    exact .mk hk (.notNull hus)
  | null h =>
    obtain ⟨k, rfl, hk⟩ := spellsWords_singleton.1 h
    exact .mk hk .null
  | check hk _ => exact .mk hk (.check _)
  | default hk _ | defaultInside hk _ => exact .mk hk (.default _)
  | references hk _ => exact .mk hk (.references _)
  | onDelete h =>
    obtain ⟨k, us, rfl, hk, hus⟩ := spellsWords_cons.1 h
    exact .mk hk (.onDelete hus)

/-- The tokens of clauses are those of the first clause, then those of the others. -/
theorem SpellsClauses.cases (h : SpellsClauses cs ts) : cs = [] ∧ ts = [] ∨
    ∃ c cs' us vs, cs = c :: cs' ∧ ts = us ++ vs ∧ c.Spelled us ∧ SpellsClauses cs' vs := by
  cases h with
  | nil => exact .inl ⟨rfl, rfl⟩
  | cons h hrest => exact .inr ⟨_, _, _, _, rfl, rfl, h, hrest⟩

/-- Clauses are spelled run by run. -/
theorem spellsClauses_flatten_iff (hruns : List.Forall₂ ClauseKind.Shape kinds runs) :
    SpellsClauses cs runs.flatten ↔ List.Forall₂ ClauseSyntax.Spelled cs runs := by
  constructor
  · intro h
    induction hruns generalizing cs with
    | nil =>
      rcases h.cases with ⟨rfl, -⟩ | ⟨c, cs, us, vs, rfl, heq, h, -⟩
      · exact .nil
      · obtain ⟨k, us, rfl, -⟩ := h.head
        cases heq
    | @cons kind run kinds runs hrun hruns ih =>
      rcases h.cases with ⟨-, hnil⟩ | ⟨c, cs, us, vs, rfl, heq, h, hrest⟩
      · obtain ⟨k, us, rfl, -⟩ := hrun.startsClause
        cases hnil
      · -- The first run and the first clause begin with one token, so that they end with one.
        obtain ⟨-, rfl, rfl⟩ := hrun.eq_of_append h.shape heq
        exact .cons h (ih hrest)
  · intro h
    clear hruns
    induction h with
    | nil => exact .nil
    | cons h _ ih => exact .cons h ih

/-- Clauses that are spelled run by run have the kinds of the runs. -/
theorem map_kind_eq (hruns : List.Forall₂ ClauseKind.Shape kinds runs)
    (h : List.Forall₂ ClauseSyntax.Spelled cs runs) : cs.map ClauseSyntax.kind = kinds := by
  induction h generalizing kinds with
  | nil => rw [List.forall₂_nil_right_iff.1 hruns, List.map_nil]
  | cons h _ ih =>
    obtain ⟨kind, kinds, hrun, hmore, rfl⟩ := List.forall₂_cons_right_iff.1 hruns
    rw [List.map_cons, ih hmore, (h.shape.eq_of_append hrun (rfl : _ ++ [] = _ ++ [])).1]

end Clauses

/-! ## Columns -/

/-- The tokens begin the definition of a column: its name, and what stands before its clauses. -/
inductive BeginsColumn (n : String) : List Token → Prop
  | mk {t : Token} {ts : List Token} (hname : t.name? = some n)
      (hts : ∀ u ∈ ts, u.startsClause = false) : BeginsColumn n (t :: ts)

section Columns

variable {n : String} {start : List Token} {kinds : List ClauseKind} {runs : List (List Token)}

/-- Runs of clauses, one after the other, begin where a clause begins. -/
theorem startsClause_of_head?_flatten (hruns : List.Forall₂ ClauseKind.Shape kinds runs) :
    ∀ t ∈ runs.flatten.head?, t.startsClause = true := by
  cases hruns with
  | nil => simp
  | cons hrun _ =>
    obtain ⟨k, ts, rfl, hk⟩ := hrun.startsClause
    simpa using hk

/-- A constraint begins with a keyword. -/
theorem SpellsConstraintName.head {name : Option String} {r : RuleSyntax} {us vs : List Token}
    (h : SpellsConstraintName name us) (hrule : r.Spelled vs) :
    ∃ k rest, us ++ vs = .keyword k :: rest := by
  cases h with
  | none =>
    obtain ⟨k, rest, rfl, -⟩ := hrule.head
    exact ⟨k, rest, rfl⟩
  | @some n k t hk _ =>
    cases k with
    | keyword k => exact ⟨k, _, rfl⟩
    | _ => cases hk

/-- What begins as a column is spelled as one, run by run. -/
theorem spelled_column_iff (hstart : BeginsColumn n start)
    (hruns : List.Forall₂ ClauseKind.Shape kinds runs) {x : ItemSyntax} :
    x.Spelled (start ++ runs.flatten) ↔ ∃ type cs, x = .column ⟨n, type, cs⟩ ∧
      type.Spelled start.tail ∧ List.Forall₂ ClauseSyntax.Spelled cs runs := by
  obtain ⟨hname, hts⟩ := hstart
  rename_i t ts
  constructor
  · intro h
    generalize hall : t :: ts ++ runs.flatten = all at h
    cases h with
    | @column c u vs ws hname' htype hclauses =>
      obtain ⟨rfl, hrest⟩ := List.cons.inj hall
      -- The type ends and the clauses begin where the first keyword of a clause is.
      obtain ⟨rfl, rfl⟩ := append_inj_of_head hrest hts htype.not_startsClause
        (startsClause_of_head?_flatten hruns) hclauses.startsClause
      obtain rfl := Option.some.inj (hname.symm.trans hname')
      exact ⟨c.type, c.clauses, rfl, htype, (spellsClauses_flatten_iff hruns).1 hclauses⟩
    | @constraint c us vs hconstraint hrule =>
      obtain ⟨k, rest, hk⟩ := hconstraint.head hrule
      obtain ⟨rfl, -⟩ := List.cons.inj (hall.trans hk)
      cases hname
  · rintro ⟨type, cs, rfl, htype, hcs⟩
    exact .column hname htype ((spellsClauses_flatten_iff hruns).2 hcs)

end Columns

/-! ## Other orders -/

/-- The tokens are two definitions of a column with the clauses in another order, none of whose
kinds occurs twice, or they are the same. -/
inductive Reordered : List Token → List Token → Prop
  | same (ts : List Token) : Reordered ts ts
  | clauses {n : String} {start : List Token} {kinds : List ClauseKind}
      {runs runs' : List (List Token)} (hstart : BeginsColumn n start)
      (hruns : List.Forall₂ ClauseKind.Shape kinds runs)
      (hnodup : kinds.Nodup) (hperm : runs.Perm runs') :
      Reordered (start ++ runs.flatten) (start ++ runs'.flatten)

/-- The parts are two columns with the clauses in another order, none of whose kinds occurs twice,
or they are the same. -/
inductive ItemSyntax.Reordered : ItemSyntax → ItemSyntax → Prop
  | same (x : ItemSyntax) : Reordered x x
  | clauses {n : String} {type : ColumnType} {cs cs' : List ClauseSyntax}
      (hnodup : (cs.map ClauseSyntax.kind).Nodup) (hperm : cs.Perm cs') :
      Reordered (.column ⟨n, type, cs⟩) (.column ⟨n, type, cs'⟩)

section Orders

variable {ts ts' : List Token}

/-- Putting clauses in another order can be undone. -/
theorem Reordered.symm (h : Reordered ts ts') : Reordered ts' ts := by
  cases h with
  | same => exact .same _
  | clauses hstart hruns hnodup hperm =>
    obtain ⟨kinds', hkinds, hruns'⟩ := exists_perm_of_forall₂ hruns hperm
    exact .clauses hstart hruns' (hkinds.nodup_iff.1 hnodup) hperm.symm

/-- The parts of a body are spelled in every order of their clauses. -/
theorem spelled_of_reordered {x : ItemSyntax} (h : Reordered ts ts') (hx : x.Spelled ts) :
    ∃ x' : ItemSyntax, x.Reordered x' ∧ x'.Spelled ts' := by
  cases h with
  | same => exact ⟨x, .same x, hx⟩
  | clauses hstart hruns hnodup hperm =>
    obtain ⟨type, cs, rfl, htype, hcs⟩ := (spelled_column_iff hstart hruns).1 hx
    obtain ⟨kinds', -, hruns'⟩ := exists_perm_of_forall₂ hruns hperm
    obtain ⟨cs', hcs', hspelled⟩ := exists_perm_of_forall₂ hcs hperm
    have hkinds := map_kind_eq hruns hcs
    exact ⟨_, .clauses (hkinds ▸ hnodup) hcs',
      (spelled_column_iff hstart hruns').2 ⟨type, cs', rfl, htype, hspelled⟩⟩

end Orders

end SqlCatalog
