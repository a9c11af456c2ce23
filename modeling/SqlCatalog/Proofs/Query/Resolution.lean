import SqlCatalog.Proofs.Catalog.Distinct
import SqlCatalog.Proofs.Query.References
import SqlCatalog.Proofs.Query.Writing

/-!
# What a reference means

The server looks a reference up scope by scope, outwards from the selection in which it stands. A
bare name means the column of that name in the innermost scope that has one, which must be the
only one there; a qualified name means the column of the table of that name in the innermost scope
that holds it. Whether a column is written with the name of its table is decided by the innermost
scope alone, so a bare name can be taken by a table of a scope between the reference and the table
that is meant.

## Main definitions

* `Reference.resolve` looks a reference up in scopes.
* `Mention` is a column as a statement mentions it, `Mention.resolve` what its text means.
* `Mention.WellScoped` says that the column is one of a table in scope.
* `Table.isFirst` says that a table is met before any other that has the column.

## Main statements

* `resolve_mentions_iff`: the columns that a statement mentions are those that its text means,
  exactly if every column that is written by its bare name is met first.
-/

namespace SqlCatalog

/-! ## Looking up -/

/-- The only fitting table of the innermost scope with a fitting table. -/
def onlyTable (fits : Table → Bool) : List Scope → Option Table
  | [] => none
  | scope :: outer =>
    match scope.filter fits with
    | [] => onlyTable fits outer
    | [t] => some t
    | _ => none

/-- The column that a reference means in the given scopes, the innermost first. -/
def Reference.resolve (d : Dialect) (scopes : List Scope) : Reference → Option ColumnRef
  | bare column => do
    let t ← onlyTable (·.hasColumn column) scopes
    (t.ref column).toOption
  | qualified table column => do
    let t ← onlyTable (fun t => d.sameName t.name table) scopes
    (t.ref column).toOption

/-- Whether the scopes up to the first that holds `t` hold no other table that fits. -/
def Table.isFirst (fits : Table → Bool) (t : Table) : List Scope → Bool
  | [] => false
  | scope :: outer =>
    !scope.any (fun u => u.id != t.id && fits u) &&
      (scope.any (fun u => u.id == t.id) || t.isFirst fits outer)

section Lookup

variable {fits : Table → Bool} {t : Table} {scopes : List Scope}

/-- A fitting table is found exactly if it is met before any other. -/
theorem onlyTable_eq_some_iff (ht : fits t = true)
    (honce : ∀ scope ∈ scopes, (scope.map Table.id).Nodup)
    (hids : ∀ scope ∈ scopes, ∀ u ∈ scope, u.id = t.id → u = t) :
    onlyTable fits scopes = some t ↔ t.isFirst fits scopes = true := by
  induction scopes with
  | nil => simp [onlyTable, Table.isFirst]
  | cons scope outer ih =>
    have hfit {u : Table} : u ∈ scope.filter fits ↔ u ∈ scope ∧ fits u = true := List.mem_filter
    have hmem : scope.any (fun u => u.id == t.id) = true ↔ t ∈ scope := by
      rw [List.any_eq_true]
      constructor
      · rintro ⟨u, hu, hid⟩
        rwa [← hids scope List.mem_cons_self u hu (by simpa using hid)]
      · intro h
        exact ⟨t, h, by simp⟩
    have hothers : (!scope.any fun u => u.id != t.id && fits u) = true ↔
        ∀ u ∈ scope.filter fits, u = t := by
      rw [Bool.not_eq_true', List.any_eq_false]
      constructor
      · intro h u hu
        obtain ⟨hu, hfits⟩ := hfit.1 hu
        refine hids scope List.mem_cons_self u hu ?_
        simpa [hfits] using h u hu
      · intro h u hu hother
        rw [Bool.and_eq_true] at hother
        obtain rfl : u = t := h u (hfit.2 ⟨hu, hother.2⟩)
        simp at hother
    have ih := ih (fun scope hscope => honce scope (List.mem_cons_of_mem _ hscope))
      (fun scope hscope => hids scope (List.mem_cons_of_mem _ hscope))
    rw [Table.isFirst, Bool.and_eq_true, Bool.or_eq_true, hothers, hmem, onlyTable]
    -- The cases are those of `onlyTable`: how many tables of the scope fit.
    rcases hfilter : scope.filter fits with _ | ⟨u, _ | ⟨v, us⟩⟩
    · have hnot : t ∉ scope := by
        intro h
        have hnil := hfit.2 ⟨h, ht⟩
        rw [hfilter] at hnil
        cases hnil
      simp [ih, hnot]
    · show some u = some t ↔ _
      constructor
      · intro h
        obtain rfl : u = t := Option.some.inj h
        have hu : u ∈ scope.filter fits := by simp [hfilter]
        exact ⟨by simp, .inl (hfit.1 hu).1⟩
      · rintro ⟨h, -⟩
        rw [h u (by simp)]
    · refine iff_of_false (by simp) ?_
      rintro ⟨h, -⟩
      have hsame : u = v := (h u (by simp)).trans (h v (by simp)).symm
      have hnodup : ((scope.filter fits).map Table.id).Nodup :=
        (honce scope List.mem_cons_self).sublist (List.filter_sublist.map _)
      rw [hfilter, hsame] at hnodup
      simp at hnodup

/-- A table that is in scope and alone fits is met before any other. -/
theorem isFirst_of_alone (halone : ∀ scope ∈ scopes, ∀ u ∈ scope, fits u = true → u = t)
    (hmem : ∃ scope ∈ scopes, t ∈ scope) : t.isFirst fits scopes = true := by
  induction scopes with
  | nil =>
    obtain ⟨scope, hscope, -⟩ := hmem
    cases hscope
  | cons scope outer ih =>
    have hothers : scope.any (fun u => u.id != t.id && fits u) = false := by
      rw [List.any_eq_false]
      intro u hu hother
      rw [Bool.and_eq_true] at hother
      obtain rfl := halone scope List.mem_cons_self u hu hother.2
      simp at hother
    rw [Table.isFirst, hothers, Bool.not_false, Bool.true_and, Bool.or_eq_true]
    by_cases ht : t ∈ scope
    · left
      rw [List.any_eq_true]
      exact ⟨t, ht, by simp⟩
    · right
      refine ih (fun scope hscope => halone scope (List.mem_cons_of_mem _ hscope)) ?_
      obtain ⟨home, hhome, hthome⟩ := hmem
      rcases List.mem_cons.1 hhome with rfl | hhome
      · exact absurd hthome ht
      · exact ⟨home, hhome, hthome⟩

end Lookup

/-! ## Mentioned columns -/

/-- A column as a statement mentions it, and the scopes in which it stands, the innermost first. -/
structure Mention where
  column : ColumnRef
  scopes : List Scope

/-- The column that a piece of a layout mentions. -/
def Piece.mention? : Piece → Option Mention
  | column c scopes => some ⟨c, scopes⟩
  | _ => none

/-- The columns that a statement mentions, from left to right. -/
def QueryStatement.mentions (q : QueryStatement) : List Mention := q.layout.filterMap Piece.mention?

namespace Mention

variable (m : Mention)

/-- The scope of the selection in which the column stands. -/
def own : Scope := m.scopes.headD []

/-- The text that is written for the column. -/
def text : String := m.column.text quoteName m.own

/-- What the text that is written for the column means where it stands. -/
def resolve (d : Dialect) : Option ColumnRef :=
  (Reference.ofText? m.text).bind fun r => r.resolve d m.scopes

/-- Whether the column is written with the name of its table, or its table is met first among
those that have a column of its name. -/
def isRecognized : Bool :=
  m.column.isAmbiguous m.own ||
    m.column.table.isFirst (fun t => t.hasColumn m.column.name) m.scopes

/-- The column is one of a table that is in scope, and the scopes hold tables of the schema, each
at most once. -/
structure WellScoped (s : Schema) : Prop where
  tables : ∀ scope ∈ m.scopes, ∀ t ∈ scope, t ∈ s.tables
  once : ∀ scope ∈ m.scopes, (scope.map Table.id).Nodup
  home : ∃ scope ∈ m.scopes, m.column.table ∈ scope
  column : m.column.column ∈ m.column.table.columns

end Mention

/-- What is written for a piece that mentions a column is the text of the mention. -/
theorem spell_mention {p : Piece} {m : Mention} (h : p.mention? = some m) (g : Speller) :
    p.spell quoteName g = .ofText m.text := by
  cases p with
  | column c scopes =>
    obtain rfl : Mention.mk c scopes = m := Option.some.inj h
    rfl
  | text | name | argument => cases h

/-! ## What mentions mean -/

section Meaning

variable {s : Schema} {m : Mention}

theorem Mention.WellScoped.table_mem (h : m.WellScoped s) : m.column.table ∈ s.tables := by
  obtain ⟨scope, hscope, hmem⟩ := h.home
  exact h.tables scope hscope _ hmem

/-- The table decides: a column of the name is that of `c` exactly if the table is that of `c`. -/
theorem resolve_eq_some_iff {name : String} {c : ColumnRef} (href : c.table.ref name = .ok c)
    (found : Option Table) :
    (found.bind fun t => (t.ref name).toOption) = some c ↔ found = some c.table := by
  rw [Option.bind_eq_some_iff]
  constructor
  · rintro ⟨t, hfound, hcolumn⟩
    have htable : c.table = t := by
      unfold Table.ref at hcolumn
      cases hnamed : t.columnNamed name with
      | error e => simp [hnamed, Except.toOption] at hcolumn
      | ok column =>
        obtain rfl : ColumnRef.mk t column = c := by
          simpa [hnamed, Except.toOption] using hcolumn
        rfl
    rw [hfound, htable]
  · intro hfound
    exact ⟨c.table, hfound, by rw [href]; rfl⟩

/-- A column is what its text means exactly if it is recognized. -/
theorem resolve_mention_iff (hs : s.Coherent) (hnames : s.Distinct) (hm : m.WellScoped s) :
    m.resolve s.dialect = some m.column ↔ m.isRecognized = true := by
  have htable : m.column.table ∈ s.tables := hm.table_mem
  have hcolumn := (hnames.columns _ htable).columnNamed hm.column
  have href : m.column.table.ref m.column.name = .ok m.column := by
    rw [Table.ref]
    show (Except.map _ (m.column.table.columnNamed m.column.column.name)) = _
    rw [hcolumn]
    rfl
  have hids : ∀ scope ∈ m.scopes, ∀ u ∈ scope, u.id = m.column.table.id → u = m.column.table := by
    intro scope hscope u hu
    exact hs.table_eq (hm.tables scope hscope u hu) htable
  rw [Mention.resolve, Mention.text, ColumnRef.text, Reference.ofText?_text, Option.bind_some,
    ColumnRef.reference, Mention.isRecognized, Bool.or_eq_true]
  by_cases hambiguous : m.column.isAmbiguous m.own = true
  · -- No other table has the name of this one, so that a qualified name is never taken.
    have halone : ∀ scope ∈ m.scopes, ∀ u ∈ scope,
        s.dialect.sameName u.name m.column.table.name = true → u = m.column.table := by
      intro scope hscope u hu hname
      exact hnames.table_eq (hm.tables scope hscope u hu) htable hname
    rw [if_pos hambiguous]
    refine iff_of_true ?_ (.inl hambiguous)
    refine (resolve_eq_some_iff href _).2 ?_
    refine (onlyTable_eq_some_iff (s.dialect.sameName_refl _) hm.once hids).2 ?_
    exact isFirst_of_alone halone hm.home
  · have hhas : m.column.table.hasColumn m.column.name = true := by
      rw [Table.hasColumn, List.any_eq_true]
      exact ⟨m.column.column, hm.column, by simp [sameIgnoringCase, ColumnRef.name]⟩
    rw [if_neg hambiguous, or_iff_right hambiguous]
    show (Option.bind _ _) = _ ↔ _
    rw [resolve_eq_some_iff href]
    exact onlyTable_eq_some_iff hhas hm.once hids

end Meaning

/-! ## Statements -/

/-- Every column that the statement mentions is one of a table that is in scope where it stands,
and the scopes hold tables of the schema, each at most once. -/
def QueryStatement.WellScoped (s : Schema) (q : QueryStatement) : Prop :=
  ∀ m ∈ q.mentions, m.WellScoped s

/-- The text of a statement over tables of a reachable schema is that of its layout, where a piece
that mentions a column is written as the text of the mention. The columns that are mentioned are
those that these texts mean, exactly if all of them are recognized. -/
theorem resolve_mentions_iff {s : Schema} (hs : Reachable s) {q : QueryStatement}
    (hq : q.WellScoped s) :
    (∀ g, (q.renderAnew quoteName g).1 = q.layout.spell quoteName (.fresh g.placeholder)) ∧
      (∀ p ∈ q.layout, ∀ m ∈ p.mention?, ∀ g, p.spell quoteName g = .ofText m.text) ∧
      ((∀ m ∈ q.mentions, m.resolve s.dialect = some m.column) ↔
        ∀ m ∈ q.mentions, m.isRecognized = true) := by
  refine ⟨fun g => ?_, fun p _ m hm => spell_mention hm, ?_⟩
  · rw [renderAnew_eq]
  · have hcoherent := coherent_of_reachable hs
    have hdistinct := distinct_of_reachable hs
    exact forall₂_congr fun m hm => resolve_mention_iff hcoherent hdistinct (hq m hm)

/-! ## Selections inside one another -/

/-- A schema with the columns `a.x`, `b.x` and `c.w`. -/
def threeTables : Schema :=
  (Schema.empty "" .standard).submit (.source
    "create table a (x integer); create table b (x integer); create table c (w integer)")

theorem reachable_threeTables : Reachable threeTables := (Reachable.empty "" .standard).submit _

theorem length_threeTables : threeTables.tables.length = 3 := by decide +kernel

/-- One of the three tables. -/
def oneOfThree (i : Fin 3) : Table := threeTables.tables.get (i.cast length_threeTables.symm)

theorem columns_oneOfThree (i : Fin 3) : 0 < (oneOfThree i).columns.length := by
  revert i
  decide +kernel

/-- The column of one of the three tables. -/
def soleColumn (i : Fin 3) : ColumnRef :=
  ⟨oneOfThree i, (oneOfThree i).columns.get ⟨0, columns_oneOfThree i⟩⟩

/-- Selects the rows of a table whose column is the column of another table in scope. -/
def equalTo (i j : Fin 3) : Select :=
  { Select.all (.table (oneOfThree i)) with
    condition := some (.columns .eq (soleColumn i) (soleColumn j)) }

/-- Selects the rows of a table whose column is in what is selected inside. -/
def inSelection (i : Fin 3) (inner : Select) : Select :=
  { Select.all (.table (oneOfThree i)) with
    condition := some ((Expression.column (soleColumn i)).isIn (.subquery inner)) }

/-- The mention of a column inside selections from the given tables, the innermost first. -/
def mentionInside (i : Fin 3) (js : List (Fin 3)) : Mention :=
  ⟨soleColumn i, js.map fun j => [oneOfThree j]⟩

theorem wellScoped_mentionInside {i : Fin 3} {js : List (Fin 3)} (h : i ∈ js) :
    (mentionInside i js).WellScoped threeTables where
  tables := by
    intro scope hscope t ht
    obtain ⟨j, -, rfl⟩ := List.mem_map.1 hscope
    rw [List.mem_singleton.1 ht]
    exact List.get_mem _ _
  once := by
    intro scope hscope
    obtain ⟨j, -, rfl⟩ := List.mem_map.1 hscope
    exact List.nodup_singleton _
  home := ⟨_, List.mem_map_of_mem h, List.mem_singleton_self _⟩
  column := List.get_mem _ _

/-- From `a`, what is in the selection from `c` where `c.w` is `a.x`. -/
def nestedOnce : QueryStatement := .select (inSelection 0 (equalTo 2 0))

theorem mentions_nestedOnce : nestedOnce.mentions =
    [mentionInside 0 [0], mentionInside 2 [2, 0], mentionInside 0 [2, 0]] := rfl

theorem wellScoped_nestedOnce : nestedOnce.WellScoped threeTables := by
  rw [QueryStatement.WellScoped, mentions_nestedOnce, List.forall_mem_cons, List.forall_mem_cons,
    List.forall_mem_singleton]
  refine ⟨?_, ?_, ?_⟩ <;> exact wellScoped_mentionInside (by decide)

/-- Inside the selection from `c`, the column `a.x` is written `x` and recognized. -/
theorem resolve_nestedOnce :
    Reachable threeTables ∧ nestedOnce.WellScoped threeTables ∧
      ∀ m ∈ nestedOnce.mentions, m.resolve threeTables.dialect = some m.column := by
  refine ⟨reachable_threeTables, wellScoped_nestedOnce, ?_⟩
  refine (resolve_mentions_iff reachable_threeTables wellScoped_nestedOnce).2.2.2 ?_
  decide +kernel

/-- From `a`, what is in the selection from `b` of what is in the selection from `c` where `c.w`
is `a.x`. -/
def nestedTwice : QueryStatement := .select (inSelection 0 (inSelection 1 (equalTo 2 0)))

theorem mentions_nestedTwice : nestedTwice.mentions =
    [mentionInside 0 [0], mentionInside 1 [1, 0], mentionInside 2 [2, 1, 0],
      mentionInside 0 [2, 1, 0]] := rfl

theorem wellScoped_nestedTwice : nestedTwice.WellScoped threeTables := by
  rw [QueryStatement.WellScoped, mentions_nestedTwice, List.forall_mem_cons, List.forall_mem_cons,
    List.forall_mem_cons, List.forall_mem_singleton]
  refine ⟨?_, ?_, ?_, ?_⟩ <;> exact wellScoped_mentionInside (by decide)

/-- With the selection from `b` around it, the column `a.x` is still written `x`, which now means
`b.x`. -/
theorem captured_nestedTwice :
    Reachable threeTables ∧ nestedTwice.WellScoped threeTables ∧
      ¬∀ m ∈ nestedTwice.mentions, m.resolve threeTables.dialect = some m.column := by
  refine ⟨reachable_threeTables, wellScoped_nestedTwice, ?_⟩
  rw [mentions_nestedTwice]
  intro h
  have hlast := h (mentionInside 0 [2, 1, 0]) (by simp)
  have htable := congrArg (Option.map fun c => c.table.name) hlast
  exact absurd htable (by decide +kernel)

end SqlCatalog
