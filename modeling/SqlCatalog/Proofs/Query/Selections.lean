import SqlCatalog.Proofs.Query.NewRows
import SqlCatalog.Query.Builder

/-!
# Valid selections

What is selected may mention the columns of the tables that the source is made of, and no others. A
column can stand deep inside the selected expressions, so its place is the path that leads to it
from outside, and the order of the columns from left to right is the lexicographic order of their
paths. No path leads into a selection inside an expression, which has a source of its own.

## Main definitions

* `Expression.parts` are the expressions directly inside an expression.
* `Expression.ColumnAt` and `ColumnAmong` say which column stands at a path.
* `InOrder` says that columns are those at paths, in the order of the paths.
* `Source.Leaf` says that a source is made of a table and maybe others.

## Main statements

* `columns_inOrder` and `columnsAll_inOrder`: the columns of expressions are those at their paths,
  in the order of the paths.
* `selectOf_by_leaves`: what can be selected from a source, and the column that is reported
  otherwise.
-/

namespace SqlCatalog

/-! ## Paths -/

/-- The expressions directly inside an expression, from left to right. -/
def Expression.parts : Expression → List Expression
  | .tuple items => items
  | .call _ arguments => arguments
  | .binary _ lhs rhs => [lhs, rhs]
  | .column _ | .constant _ | .parameter _ | .verbatim _ | .subquery _ => []

/-- The column stands at the path, each number of which says into which part it leads. -/
inductive Expression.ColumnAt : Expression → List Nat → ColumnRef → Prop
  | here (c : ColumnRef) : ColumnAt (.column c) [] c
  | inside {e part : Expression} {i : Nat} {path : List Nat} {c : ColumnRef}
      (hpart : e.parts[i]? = some part) (h : ColumnAt part path c) : ColumnAt e (i :: path) c

/-- The column stands at the path that begins with the number of one of the expressions. -/
def ColumnAmong (es : List Expression) : List Nat → ColumnRef → Prop
  | [], _ => False
  | i :: path, c => ∃ e, es[i]? = some e ∧ e.ColumnAt path c

/-- The column at a path is the first one with a property. -/
structure FirstAt (At : List Nat → ColumnRef → Prop) (p : ColumnRef → Bool) (path : List Nat)
    (c : ColumnRef) : Prop where
  here : At path c
  property : p c = true
  first : ∀ before < path, ∀ d, At before d → p d = false

section Paths

variable {e : Expression} {es : List Expression} {i : Nat} {path : List Nat} {c : ColumnRef}

theorem columnAt_nil_iff : e.ColumnAt [] c ↔ e = .column c := by
  constructor
  · rintro ⟨⟩
    rfl
  · rintro rfl
    exact .here c

/-- A path into an expression leads into one of its parts. -/
theorem columnAt_cons_iff : e.ColumnAt (i :: path) c ↔ ColumnAmong e.parts (i :: path) c := by
  constructor
  · rintro ⟨⟩
    rename_i part hpart h
    exact ⟨part, hpart, h⟩
  · rintro ⟨part, hpart, h⟩
    exact .inside hpart h

theorem not_columnAmong_nil : ¬ColumnAmong [] path c := by
  cases path with
  | nil => exact id
  | cons i path =>
    rintro ⟨e, he, -⟩
    cases he

theorem columnAmong_zero_iff :
    ColumnAmong (e :: es) (0 :: path) c ↔ e.ColumnAt path c := by
  simp [ColumnAmong]

theorem columnAmong_succ_iff :
    ColumnAmong (e :: es) ((i + 1) :: path) c ↔ ColumnAmong es (i :: path) c := by
  simp [ColumnAmong]

/-- In an expression that is no column itself, columns stand in its parts. -/
theorem columnAt_iff_of_ne (he : ∀ c, e ≠ .column c) :
    e.ColumnAt path c ↔ ColumnAmong e.parts path c := by
  cases path with
  | nil => exact iff_of_false (fun h => he c (columnAt_nil_iff.1 h)) id
  | cons i path => exact columnAt_cons_iff

end Paths

/-! ## The columns of expressions -/

/-- The columns are those that stand at paths, in the order of the paths. -/
structure InOrder (columns : List ColumnRef) (At : List Nat → ColumnRef → Prop) : Prop where
  mem : ∀ c, c ∈ columns ↔ ∃ path, At path c
  first : ∀ p c, columns.find? p = some c ↔ ∃ path, FirstAt At p path c

section Columns

variable {e : Expression} {es : List Expression} {p : ColumnRef → Bool} {c : ColumnRef}

/-- A column among expressions is in the first one or among the others. -/
theorem exists_columnAmong_cons_iff :
    (∃ path, ColumnAmong (e :: es) path c) ↔
      (∃ path, e.ColumnAt path c) ∨ ∃ path, ColumnAmong es path c := by
  constructor
  · rintro ⟨_ | ⟨_ | i, path⟩, h⟩
    · exact h.elim
    · exact .inl ⟨path, columnAmong_zero_iff.1 h⟩
    · exact .inr ⟨i :: path, columnAmong_succ_iff.1 h⟩
  · rintro (⟨path, h⟩ | ⟨_ | ⟨i, path⟩, h⟩)
    · exact ⟨0 :: path, columnAmong_zero_iff.2 h⟩
    · exact h.elim
    · exact ⟨(i + 1) :: path, columnAmong_succ_iff.2 h⟩

/-- The first column of some expressions is that of the first expression, or that of the others if
the first one has none. -/
theorem exists_firstAt_cons_iff :
    (∃ path, FirstAt (ColumnAmong (e :: es)) p path c) ↔
      (∃ path, FirstAt e.ColumnAt p path c) ∨
        (∀ path d, e.ColumnAt path d → p d = false) ∧
          ∃ path, FirstAt (ColumnAmong es) p path c := by
  constructor
  · rintro ⟨_ | ⟨_ | i, path⟩, h⟩
    · exact h.here.elim
    · refine .inl ⟨path, columnAmong_zero_iff.1 h.here, h.property, fun before hbefore d hd => ?_⟩
      exact h.first (0 :: before) (List.cons_lt_cons_iff.2 (.inr ⟨rfl, hbefore⟩)) d
        (columnAmong_zero_iff.2 hd)
    · refine .inr ⟨fun before d hd => ?_, i :: path, columnAmong_succ_iff.1 h.here, h.property, ?_⟩
      · exact h.first (0 :: before) (List.cons_lt_cons_iff.2 (.inl i.succ_pos)) d
          (columnAmong_zero_iff.2 hd)
      · rintro (_ | ⟨j, before⟩) hbefore d hd
        · exact hd.elim
        · refine h.first ((j + 1) :: before) (List.cons_lt_cons_iff.2 ?_) d
            (columnAmong_succ_iff.2 hd)
          simpa using List.cons_lt_cons_iff.1 hbefore
  · rintro (⟨path, h⟩ | ⟨hnone, _ | ⟨i, path⟩, h⟩)
    · refine ⟨0 :: path, columnAmong_zero_iff.2 h.here, h.property, ?_⟩
      rintro (_ | ⟨_ | j, before⟩) hbefore d hd
      · exact hd.elim
      · exact h.first before (by simpa [List.cons_lt_cons_iff] using hbefore) d
          (columnAmong_zero_iff.1 hd)
      · simp [List.cons_lt_cons_iff] at hbefore
    · exact h.here.elim
    · refine ⟨(i + 1) :: path, columnAmong_succ_iff.2 h.here, h.property, ?_⟩
      rintro (_ | ⟨_ | j, before⟩) hbefore d hd
      · exact hd.elim
      · exact hnone before d (columnAmong_zero_iff.1 hd)
      · refine h.first (j :: before) (List.cons_lt_cons_iff.2 ?_) d (columnAmong_succ_iff.1 hd)
        simpa using List.cons_lt_cons_iff.1 hbefore

namespace InOrder

theorem nil : InOrder [] (ColumnAmong []) where
  mem c := by simp [not_columnAmong_nil]
  first p c := by
    refine iff_of_false (by simp) ?_
    rintro ⟨path, h⟩
    exact not_columnAmong_nil h.here

theorem column (c : ColumnRef) : InOrder [c] (Expression.column c).ColumnAt where
  mem d := by
    rw [List.mem_singleton]
    constructor
    · rintro rfl
      exact ⟨[], .here d⟩
    · rintro ⟨path, h⟩
      cases h with
      | here => rfl
      | inside hpart => cases hpart
  first p d := by
    constructor
    · intro h
      obtain rfl : d = c := List.mem_singleton.1 (List.mem_of_find?_eq_some h)
      refine ⟨[], .here d, List.find?_some h, fun before hbefore => ?_⟩
      exact absurd hbefore (List.not_lt_nil before)
    · rintro ⟨path, h⟩
      obtain ⟨hat, hp, -⟩ := h
      cases hat with
      | here => exact List.find?_cons_of_pos hp
      | inside hpart => cases hpart

/-- The columns of the first expression come before those of the others. -/
theorem cons {columns : List ColumnRef} (he : InOrder e.columns e.ColumnAt)
    (hes : InOrder columns (ColumnAmong es)) :
    InOrder (e.columns ++ columns) (ColumnAmong (e :: es)) where
  mem c := by rw [List.mem_append, he.mem, hes.mem, exists_columnAmong_cons_iff]
  first p c := by
    have hnone : e.columns.find? p = none ↔ ∀ path d, e.ColumnAt path d → p d = false := by
      simp only [List.find?_eq_none, Bool.not_eq_true, he.mem]
      exact ⟨fun h path d hd => h d ⟨path, hd⟩, fun h d ⟨path, hd⟩ => h path d hd⟩
    rw [List.find?_append, Option.or_eq_some_iff, he.first, hes.first, hnone,
      exists_firstAt_cons_iff]

/-- In an expression that is no column itself, columns stand in its parts. -/
theorem of_parts {columns : List ColumnRef} (he : ∀ c, e ≠ .column c)
    (h : InOrder columns (ColumnAmong e.parts)) : InOrder columns e.ColumnAt := by
  have hAt : e.ColumnAt = ColumnAmong e.parts := by
    funext path c
    exact propext (columnAt_iff_of_ne he)
  rwa [hAt]

end InOrder

mutual

/-- The columns of an expression are listed from left to right. -/
theorem columns_inOrder : ∀ e : Expression, InOrder e.columns e.ColumnAt
  | .column c => by
    rw [Expression.columns]
    exact .column c
  | .tuple items => by
    rw [Expression.columns]
    exact .of_parts (by simp) (columnsAll_inOrder items)
  | .call name arguments => by
    rw [Expression.columns]
    exact .of_parts (by simp) (columnsAll_inOrder arguments)
  | .binary operator lhs rhs => by
    have hparts := (columns_inOrder lhs).cons ((columns_inOrder rhs).cons .nil)
    rw [Expression.columns]
    rw [List.append_nil] at hparts
    exact .of_parts (by simp) hparts
  | .constant value => by
    rw [Expression.columns]
    exact .of_parts (by simp) .nil
  | .parameter parameter => by
    rw [Expression.columns]
    exact .of_parts (by simp) .nil
  | .verbatim text => by
    rw [Expression.columns]
    exact .of_parts (by simp) .nil
  | .subquery select => by
    rw [Expression.columns]
    exact .of_parts (by simp) .nil

/-- The columns of several expressions are listed from left to right. -/
theorem columnsAll_inOrder :
    ∀ es : List Expression, InOrder (Expression.columnsAll es) (ColumnAmong es)
  | [] => by
    rw [Expression.columnsAll]
    exact .nil
  | e :: es => by
    rw [Expression.columnsAll]
    exact (columns_inOrder e).cons (columnsAll_inOrder es)

end

/-- What holds of all columns at paths holds of all columns. -/
theorem forall_columnAmong_iff {P : ColumnRef → Prop} :
    (∀ path c, ColumnAmong es path c → P c) ↔ ∀ c ∈ Expression.columnsAll es, P c := by
  simp only [(columnsAll_inOrder es).mem]
  exact ⟨fun h c ⟨path, hc⟩ => h path c hc, fun h path c hc => h c ⟨path, hc⟩⟩

end Columns

/-! ## The tables of a source -/

/-- The source is made of the table and maybe others. -/
inductive Source.Leaf (t : Table) : Source → Prop
  | table : Leaf t (.table t)
  | joinLeft (kind : JoinKind) {left : Source} (right : Source) (on : Comparison)
      (h : Leaf t left) : Leaf t (.join kind left right on)
  | joinRight (kind : JoinKind) (left : Source) {right : Source} (on : Comparison)
      (h : Leaf t right) : Leaf t (.join kind left right on)
  | crossLeft {left : Source} (right : Source) (h : Leaf t left) : Leaf t (.crossJoin left right)
  | crossRight (left : Source) {right : Source} (h : Leaf t right) : Leaf t (.crossJoin left right)

/-- The tables of a source are its leaves. -/
theorem mem_tables_iff {t : Table} (source : Source) : t ∈ source.tables ↔ source.Leaf t := by
  fun_induction Source.tables source with
  | case1 u =>
    rw [List.mem_singleton]
    constructor
    · rintro rfl
      exact .table
    · rintro ⟨⟩
      rfl
  | case2 kind left right on ihl ihr =>
    rw [List.mem_append, ihl, ihr]
    constructor
    · rintro (h | h)
      · exact .joinLeft kind right on h
      · exact .joinRight kind left on h
    · intro h
      cases h with
      | joinLeft _ _ _ h => exact .inl h
      | joinRight _ _ _ h => exact .inr h
  | case3 left right ihl ihr =>
    rw [List.mem_append, ihl, ihr]
    constructor
    · rintro (h | h)
      · exact .crossLeft right h
      · exact .crossRight left h
    · intro h
      cases h with
      | crossLeft _ h => exact .inl h
      | crossRight _ h => exact .inr h

/-! ## Selections -/

section Selections

variable {s : Schema} {columns : List Expression} {source : Source}

section Stray

variable (hs : s.Coherent)
  (hcolumns : ∀ path c, ColumnAmong columns path c → c.table ∈ s.tables)
  (hsource : ∀ t, source.Leaf t → t ∈ s.tables)

include hs hsource in
/-- The tables of one schema are told apart by their places. -/
theorem belongsTo_tables_iff {c : ColumnRef} (hc : c.table ∈ s.tables) :
    c.belongsTo source.tables = true ↔ source.Leaf c.table := by
  rw [ColumnRef.belongsTo, List.any_eq_true]
  constructor
  · rintro ⟨t, ht, hid⟩
    have hleaf := (mem_tables_iff source).1 ht
    rwa [← hs.table_eq (hsource t hleaf) hc (by simpa using hid)]
  · intro hleaf
    exact ⟨c.table, (mem_tables_iff source).2 hleaf, by simp⟩

include hs hcolumns hsource

/-- No column strays exactly when the table of each is a leaf of the source. -/
theorem find?_stray_eq_none_iff :
    ((Expression.columnsAll columns).find? fun c => !c.belongsTo source.tables) = none ↔
      ∀ path c, ColumnAmong columns path c → source.Leaf c.table := by
  rw [forall_columnAmong_iff, List.find?_eq_none]
  refine forall₂_congr fun c hc => ?_
  rw [Bool.not_eq_true, Bool.not_eq_false',
    belongsTo_tables_iff hs hsource (forall_columnAmong_iff.1 hcolumns c hc)]

/-- The stray column that is found is the first one in the order of paths. -/
theorem find?_stray_eq_some_iff {c : ColumnRef} :
    ((Expression.columnsAll columns).find? fun c => !c.belongsTo source.tables) = some c ↔
      ∃ path, ColumnAmong columns path c ∧ ¬source.Leaf c.table ∧
        ∀ before < path, ∀ d, ColumnAmong columns before d → source.Leaf d.table := by
  have hbelongs {path : List Nat} {d : ColumnRef} (hd : ColumnAmong columns path d) :
      (!d.belongsTo source.tables) = false ↔ source.Leaf d.table := by
    rw [Bool.not_eq_false', belongsTo_tables_iff hs hsource (hcolumns path d hd)]
  rw [(columnsAll_inOrder columns).first]
  refine exists_congr fun path => ⟨fun h => ⟨h.here, fun hleaf => ?_, ?_⟩, fun h => ⟨h.1, ?_, ?_⟩⟩
  · have hp := h.property
    rw [(hbelongs h.here).2 hleaf] at hp
    cases hp
  · exact fun before hbefore d hd => (hbelongs hd).1 (h.first before hbefore d hd)
  · exact Bool.eq_true_of_not_eq_false fun hp => h.2.1 ((hbelongs h.1).1 hp)
  · exact fun before hbefore d hd => (hbelongs hd).2 (h.2.2 before hbefore d hd)

end Stray

/-- Expressions over the tables of a reachable schema can be selected from a source exactly if
every column in them is of a table of the source. Otherwise the error names the first column that
is of another table, from left to right. -/
theorem selectOf_by_leaves (hs : Reachable s)
    (hcolumns : ∀ path c, ColumnAmong columns path c → c.table ∈ s.tables)
    (hsource : ∀ t, source.Leaf t → t ∈ s.tables) :
    (∀ select, Select.of columns source = .ok select ↔
      (∀ path c, ColumnAmong columns path c → source.Leaf c.table) ∧
        select = { Select.all source with columns := columns }) ∧
    ∀ e, Select.of columns source = .error e ↔
      ∃ path c, ColumnAmong columns path c ∧ ¬source.Leaf c.table ∧
        (∀ before < path, ∀ d, ColumnAmong columns before d → source.Leaf d.table) ∧
          e = .notInSource c.table.name c.name := by
  have hcoherent := coherent_of_reachable hs
  cases hfind : (Expression.columnsAll columns).find? fun c => !c.belongsTo source.tables with
  | none =>
    have hof : Select.of columns source = .ok { Select.all source with columns := columns } := by
      rw [Select.of, hfind]
    have hleaves := (find?_stray_eq_none_iff hcoherent hcolumns hsource).1 hfind
    rw [hof]
    refine ⟨fun select => ?_, fun e => iff_of_false (by simp) ?_⟩
    · rw [Except.ok.injEq, eq_comm, and_iff_right hleaves]
    · rintro ⟨path, c, hc, hstray, -⟩
      exact hstray (hleaves path c hc)
  | some c =>
    have hof : Select.of columns source = .error (.notInSource c.table.name c.name) := by
      rw [Select.of, hfind]
    have hfirst {d : ColumnRef} := find?_stray_eq_some_iff hcoherent hcolumns hsource (c := d)
    obtain ⟨path, hc, hstray, hbefore⟩ := hfirst.1 hfind
    rw [hof]
    refine ⟨fun select => iff_of_false (by simp) ?_, fun e => ?_⟩
    · rintro ⟨hleaves, -⟩
      exact hstray (hleaves path c hc)
    · rw [Except.error.injEq, eq_comm]
      constructor
      · rintro rfl
        exact ⟨path, c, hc, hstray, hbefore, rfl⟩
      · rintro ⟨path', d, hd, hstray', hbefore', rfl⟩
        have hfind' := hfirst.2 ⟨path', hd, hstray', hbefore'⟩
        rw [hfind] at hfind'
        rw [Option.some.inj hfind']

end Selections

/-! ## Expressions over two tables -/

/-- A column and the sum of two others, behind a selection inside that is not asked for its
columns. -/
def nestedColumns (c d e : ColumnRef) : List Expression :=
  [.subquery { Select.all (.table e.table) with columns := [.column e] },
    .tuple [.column c, .call "max" [.binary .plus (.column d) (.column e)]]]

theorem columnsAll_nestedColumns (c d e : ColumnRef) :
    Expression.columnsAll (nestedColumns c d e) = [c, d, e] := rfl

/-- From both tables the expressions can be selected, from the first one alone they cannot. -/
theorem selectOf_nestedColumns :
    (∃ select, Select.of (nestedColumns (firstColumn 0) (firstColumn 2) secondColumn)
      (.crossJoin (.table firstTable) (.table secondTable)) = .ok select) ∧
    Select.of (nestedColumns (firstColumn 0) (firstColumn 2) secondColumn) (.table firstTable) =
      .error (.notInSource "b" "x") := by
  have hlist := columnsAll_nestedColumns (firstColumn 0) (firstColumn 2) secondColumn
  have hcolumns : ∀ path c,
      ColumnAmong (nestedColumns (firstColumn 0) (firstColumn 2) secondColumn) path c →
        c.table ∈ twoTables.tables := by
    rw [forall_columnAmong_iff, hlist]
    simp [table_firstColumn, firstTable_mem, isOf_secondColumn.table]
  constructor
  · let both : Source := .crossJoin (.table firstTable) (.table secondTable)
    have hsource : ∀ t, both.Leaf t → t ∈ twoTables.tables := by
      intro t ht
      have ht : t ∈ [firstTable, secondTable] := (mem_tables_iff both).2 ht
      rcases List.mem_pair.1 ht with rfl | rfl
      · exact firstTable_mem
      · exact isOf_secondColumn.table
    refine ⟨_, ((selectOf_by_leaves reachable_twoTables hcolumns hsource).1 _).2 ⟨?_, rfl⟩⟩
    rw [forall_columnAmong_iff, hlist, List.forall_mem_cons, List.forall_mem_cons,
      List.forall_mem_singleton]
    exact ⟨.crossLeft _ .table, .crossLeft _ .table, .crossRight _ .table⟩
  · have hsource : ∀ t, (Source.table firstTable).Leaf t → t ∈ twoTables.tables := by
      rintro t ⟨⟩
      exact firstTable_mem
    obtain ⟨hok, herror⟩ := selectOf_by_leaves reachable_twoTables hcolumns hsource
    cases hof : Select.of (nestedColumns (firstColumn 0) (firstColumn 2) secondColumn)
        (.table firstTable) with
    | ok select =>
      have hleaves := ((hok select).1 hof).1
      rw [forall_columnAmong_iff, hlist] at hleaves
      have hleaf := (mem_tables_iff _).2 (hleaves secondColumn (by simp))
      exact absurd (List.mem_singleton.1 hleaf) secondTable_ne_firstTable
    | error e =>
      obtain ⟨path, c, hc, hstray, -, rfl⟩ := (herror e).1 hof
      have hmem := ((columnsAll_inOrder _).mem c).2 ⟨path, hc⟩
      have hfirst (i : Fin 3) : c ≠ firstColumn i := by
        rintro rfl
        exact hstray .table
      rw [hlist] at hmem
      obtain rfl : c = secondColumn := by simpa [hfirst] using hmem
      rw [table_secondColumn, outline_secondTable.1, ColumnRef.name, name_secondColumn]

end SqlCatalog
