import SqlCatalog.Proofs.Query.ColumnValues

/-!
# New rows

A new row must have values for the columns that demand one: those that are declared not to be null
and have no default. A table knows its constraints by the places of columns while the given values
are kept by their names, but in a reachable schema both tell the columns of a table apart.

## Main definitions

* `Table.Demands` says that a column demands a value.
* `RowFault` says what is wrong with the values for a new row.

## Main statements

* `Assignments.mem_omitted`: which columns are missing.
* `forRow_by_demands`: when values make a new row, and what is wrong with them otherwise.
-/

namespace SqlCatalog

/-! ## Demands -/

/-- The column is declared not to be null, without a default. -/
def Table.Demands (t : Table) (c : Column) : Prop :=
  .notNull c.position ∈ t.constraints ∧ c.default = none

/-- A column cannot be null exactly when a constraint says so. -/
theorem Table.canBeNull_eq_false_iff {t : Table} {c : Column} :
    t.canBeNull c = false ↔ .notNull c.position ∈ t.constraints := by
  rw [canBeNull, Bool.not_eq_false', List.any_eq_true]
  constructor
  · rintro ⟨constraint, hmem, hconstraint⟩
    cases constraint with
    | notNull i =>
      obtain rfl : i = c.position := by simpa using hconstraint
      exact hmem
    | unique | check => cases hconstraint
  · intro hmem
    exact ⟨_, hmem, beq_self_eq_true _⟩

/-- The test for columns that need a value decides what the table demands. -/
theorem Table.needsValue_iff {t : Table} {c : Column} : t.needsValue c = true ↔ t.Demands c := by
  rw [needsValue, Bool.and_eq_true, Bool.not_eq_true', canBeNull_eq_false_iff,
    Option.isNone_iff_eq_none, Demands]

/-- What is wrong with the values for a new row. -/
inductive RowFault (values : List (ColumnRef × Expression)) : QueryError → Prop
  /-- There are none. -/
  | empty (hvalues : values = []) : RowFault values .emptyColumnMap
  /-- A column is not of the table of the first one, the columns before it being of that table. -/
  | stray {first stray : ColumnRef × Expression} {between after : List (ColumnRef × Expression)}
      (hvalues : values = first :: (between ++ stray :: after))
      (hbetween : ∀ v ∈ between, v.1.table = first.1.table)
      (hstray : stray.1.table ≠ first.1.table) :
      RowFault values (.notOfTable stray.1.table.name stray.1.name first.1.table.name)
  /-- All columns are of one table and some of its columns that demand a value are not among them.
  These are named in the order of the table. -/
  | omitted {t : Table} {columns : List Column} (hvalues : values ≠ [])
      (htable : ∀ v ∈ values, v.1.table = t) (horder : columns.Sublist t.columns)
      (hcolumns : ∀ c, c ∈ columns ↔
        c ∈ t.columns ∧ t.Demands c ∧ ∀ v ∈ values, v.1.column ≠ c)
      (hne : columns ≠ []) : RowFault values (.notEnoughValues (columns.map Column.name))

namespace Assignments

variable {s : Schema} {values : List (ColumnRef × Expression)} {t : Table} {c : Column}
  {e : QueryError}

/-! ## Missing columns -/

/-- The columns of a table that need a value and are not among the given ones. -/
def omitted (t : Table) (values : List (ColumnRef × Expression)) : List Column :=
  t.columns.filter fun c =>
    t.needsValue c && !(canonical values).any fun v => v.1.column.position == c.position

theorem missing_canonical (t : Table) (values : List (ColumnRef × Expression)) :
    missing ⟨t, canonical values⟩ = (omitted t values).map Column.name := rfl

/-- A row of values for columns of one table is refused if some column is missing. -/
theorem forRow_of_table (hne : values ≠ []) (htable : ∀ v ∈ values, v.1.table = t) :
    forRow values =
      if omitted t values = [] then .ok ⟨t, canonical values⟩
      else .error (.notEnoughValues ((omitted t values).map Column.name)) := by
  rw [forRow, of_eq_ok hne htable]
  simp only [bind, Except.bind, missing_canonical, List.isEmpty_iff, List.map_eq_nil_iff]
  rfl

section Table

variable (hcoherent : t.Coherent) (hdistinct : t.Distinct)
  (hvalues : ∀ v ∈ values, v.1.table = t ∧ v.1.column ∈ t.columns)

include hcoherent hdistinct hvalues

/-- A column has the place of an accepted one exactly if it is among the given ones, although of
these only the last ones of their names are accepted. -/
theorem any_canonical_iff (hc : c ∈ t.columns) :
    ((canonical values).any fun v => v.1.column.position == c.position) = true ↔
      ∃ v ∈ values, v.1.column = c := by
  simp only [List.any_eq_true, beq_iff_eq]
  constructor
  · rintro ⟨v, hv, hposition⟩
    have hmem := (mem_canonical_iff_name.1 hv).mem
    exact ⟨v, hmem, hcoherent.column_eq (hvalues v hmem).2 hc hposition⟩
  · rintro ⟨v, hv, rfl⟩
    obtain ⟨w, hw, hname⟩ := LastGiven.exists_of_mem (fun v => v.1.name) hv
    refine ⟨w, mem_canonical_iff_name.2 hw, ?_⟩
    rw [hdistinct.column_eq (hvalues w hw.mem).2 hc hname]

/-- Missing are the columns that demand a value and are not among the given ones. -/
theorem mem_omitted : c ∈ omitted t values ↔
    c ∈ t.columns ∧ t.Demands c ∧ ∀ v ∈ values, v.1.column ≠ c := by
  rw [omitted, List.mem_filter, Bool.and_eq_true, Table.needsValue_iff, Bool.not_eq_true']
  refine and_congr_right fun hc => and_congr_right fun _ => ?_
  rw [← Bool.not_eq_true, any_canonical_iff hcoherent hdistinct hvalues hc]
  simp

/-- Nothing is omitted exactly when every demanded column is given. -/
theorem omitted_eq_nil_iff : omitted t values = [] ↔
    ∀ c ∈ t.columns, t.Demands c → ∃ v ∈ values, v.1.column = c := by
  rw [List.eq_nil_iff_forall_not_mem]
  constructor
  · intro h c hc hdemands
    by_contra hmissing
    refine h c ((mem_omitted hcoherent hdistinct hvalues).2 ⟨hc, hdemands, ?_⟩)
    intro v hv heq
    exact hmissing ⟨v, hv, heq⟩
  · intro h c hc
    obtain ⟨hcolumn, hdemands, hmissing⟩ := (mem_omitted hcoherent hdistinct hvalues).1 hc
    obtain ⟨v, hv, heq⟩ := h c hcolumn hdemands
    exact hmissing v hv heq

/-- The missing columns, in the order of the table, are determined by what they are. -/
theorem eq_omitted {columns : List Column} (horder : columns.Sublist t.columns)
    (hcolumns : ∀ c, c ∈ columns ↔ c ∈ t.columns ∧ t.Demands c ∧ ∀ v ∈ values, v.1.column ≠ c) :
    columns = omitted t values := by
  have hmem (c : Column) : c ∈ columns ↔ c ∈ omitted t values := by
    rw [hcolumns, mem_omitted hcoherent hdistinct hvalues]
  have hnodup : t.columns.Nodup := .of_map Column.name (.of_map lower hdistinct)
  have hsublist := horder.filter fun c =>
    t.needsValue c && !(canonical values).any fun v => v.1.column.position == c.position
  rw [List.filter_eq_self.2 fun c hc => (List.mem_filter.1 ((hmem c).1 hc)).2] at hsublist
  have hperm : columns.Perm (omitted t values) :=
    (List.perm_ext_iff_of_nodup (horder.nodup hnodup) (hnodup.filter _)).2 hmem
  exact hsublist.eq_of_length hperm.length_eq

end Table

/-- Values that are not accepted make no row. -/
theorem forRow_eq_error (h : of values = .error e) : forRow values = .error e := by
  rw [forRow, h]
  rfl

end Assignments

/-! ## Faults -/

section Faults

open Assignments

variable {s : Schema} {values : List (ColumnRef × Expression)} {a : Assignments} {e : QueryError}
  {t : Table} (hs : Reachable s) (hvalues : ∀ v ∈ values, v.1.IsOf s)

include hs hvalues

/-- Tables of the given columns are told apart by their places. -/
theorem table_id_eq_iff {v w : ColumnRef × Expression} (hv : v ∈ values) (hw : w ∈ values) :
    v.1.table.id = w.1.table.id ↔ v.1.table = w.1.table :=
  ⟨(coherent_of_reachable hs).table_eq (hvalues v hv).table (hvalues w hw).table,
    congrArg Table.id⟩

/-- If the columns are of one table, they are columns of this table of the schema. -/
theorem columns_of_table (hne : values ≠ []) (htable : ∀ v ∈ values, v.1.table = t) :
    t.Coherent ∧ t.Distinct ∧ ∀ v ∈ values, v.1.table = t ∧ v.1.column ∈ t.columns := by
  have ht : t ∈ s.tables := by
    obtain ⟨v, hv⟩ := List.exists_mem_of_ne_nil values hne
    rw [← htable v hv]
    exact (hvalues v hv).table
  refine ⟨(coherent_of_reachable hs).tables t ht, (distinct_of_reachable hs).columns t ht, ?_⟩
  intro v hv
  refine ⟨htable v hv, ?_⟩
  rw [← htable v hv]
  exact (hvalues v hv).column

/-- What is accepted is for columns of one table. -/
theorem table_of_accepted (h : of values = .ok a) :
    values ≠ [] ∧ ∃ t, ∀ v ∈ values, v.1.table = t := by
  rcases values with _ | ⟨first, values⟩
  · cases h
  · have hids := (of_cons_eq_ok.1 h).1
    refine ⟨List.cons_ne_nil _ _, first.1.table, ?_⟩
    intro v hv
    rcases List.mem_cons.1 hv with rfl | hmem
    · rfl
    · exact (table_id_eq_iff hs hvalues hv List.mem_cons_self).1 (hids v hmem)

/-- What is not accepted has a fault. -/
theorem fault_of_not_accepted (h : of values = .error e) : RowFault values e := by
  rcases values with _ | ⟨first, values⟩
  · obtain rfl := Except.error.inj h
    exact .empty rfl
  · obtain ⟨between, stray, after, rfl, hbetween, hstray, rfl⟩ := of_cons_eq_error.1 h
    refine .stray rfl ?_ ?_
    · intro v hv
      exact (table_id_eq_iff hs hvalues (by simp [hv]) List.mem_cons_self).1 (hbetween v hv)
    · intro htable
      exact hstray (congrArg Table.id htable)

/-- Where a column is astray, the values are not accepted for that reason. -/
theorem not_accepted_of_stray {first stray : ColumnRef × Expression}
    {between after : List (ColumnRef × Expression)}
    (heq : values = first :: (between ++ stray :: after))
    (hbetween : ∀ v ∈ between, v.1.table = first.1.table)
    (hstray : stray.1.table ≠ first.1.table) :
    of values = .error (.notOfTable stray.1.table.name stray.1.name first.1.table.name) := by
  subst heq
  refine of_cons_eq_error.2 ⟨between, stray, after, rfl, ?_, ?_, rfl⟩
  · intro v hv
    rw [hbetween v hv]
  · intro hid
    exact hstray ((table_id_eq_iff hs hvalues (by simp) List.mem_cons_self).1 hid)

/-- Which values make a new row. -/
theorem exists_forRow_eq_ok_iff : (∃ a, forRow values = .ok a) ↔
    values ≠ [] ∧ ∃ t, (∀ v ∈ values, v.1.table = t) ∧
      ∀ c ∈ t.columns, t.Demands c → ∃ v ∈ values, v.1.column = c := by
  constructor
  · rintro ⟨a, ha⟩
    cases haccepted : of values with
    | error e =>
      rw [forRow_eq_error haccepted] at ha
      cases ha
    | ok b =>
      obtain ⟨hne, t, htable⟩ := table_of_accepted hs hvalues haccepted
      obtain ⟨hcoherent, hdistinct, hcolumns⟩ := columns_of_table hs hvalues hne htable
      rw [forRow_of_table hne htable] at ha
      split at ha
      · rename_i hnone
        exact ⟨hne, t, htable, (omitted_eq_nil_iff hcoherent hdistinct hcolumns).1 hnone⟩
      · cases ha
  · rintro ⟨hne, t, htable, hdemands⟩
    obtain ⟨hcoherent, hdistinct, hcolumns⟩ := columns_of_table hs hvalues hne htable
    have hnone := (omitted_eq_nil_iff hcoherent hdistinct hcolumns).2 hdemands
    rw [forRow_of_table hne htable, if_pos hnone]
    exact ⟨_, rfl⟩

/-- Values that make no row have the fault for which they are refused. -/
theorem forRow_eq_error_iff : forRow values = .error e ↔ RowFault values e := by
  constructor
  · intro he
    cases haccepted : of values with
    | error e' =>
      rw [forRow_eq_error haccepted] at he
      obtain rfl := Except.error.inj he
      exact fault_of_not_accepted hs hvalues haccepted
    | ok b =>
      obtain ⟨hne, t, htable⟩ := table_of_accepted hs hvalues haccepted
      obtain ⟨hcoherent, hdistinct, hcolumns⟩ := columns_of_table hs hvalues hne htable
      rw [forRow_of_table hne htable] at he
      split at he
      · cases he
      · rename_i hsome
        obtain rfl := Except.error.inj he
        exact .omitted hne htable List.filter_sublist
          (fun c => mem_omitted hcoherent hdistinct hcolumns) hsome
  · intro hfault
    cases hfault with
    | empty hempty =>
      rw [hempty]
      rfl
    | stray heq hbetween hstray =>
      exact forRow_eq_error (not_accepted_of_stray hs hvalues heq hbetween hstray)
    | omitted hne htable horder hmissing hsome =>
      obtain ⟨hcoherent, hdistinct, hcolumns⟩ := columns_of_table hs hvalues hne htable
      obtain rfl := eq_omitted hcoherent hdistinct hcolumns horder hmissing
      rw [forRow_of_table hne htable, if_neg hsome]

end Faults

/-- Values for columns of a reachable schema make a new row exactly if there are any, all columns
are of one table, and every column of that table that demands a value is among them. Otherwise
there is one thing wrong with them, and that is the error. -/
theorem forRow_by_demands {s : Schema} (hs : Reachable s)
    {values : List (ColumnRef × Expression)} (hvalues : ∀ v ∈ values, v.1.IsOf s) :
    ((∃ a, Assignments.forRow values = .ok a) ↔
      values ≠ [] ∧ ∃ t, (∀ v ∈ values, v.1.table = t) ∧
        ∀ c ∈ t.columns, t.Demands c → ∃ v ∈ values, v.1.column = c) ∧
    ∀ e, Assignments.forRow values = .error e ↔ RowFault values e :=
  ⟨exists_forRow_eq_ok_iff hs hvalues, fun _ => forRow_eq_error_iff hs hvalues⟩

/-! ## Rows of a table -/

/-- A schema with the tables `a`, of whose columns only `x` demands a value, and `b`. -/
def twoTables : Schema :=
  (Schema.empty "" .standard).submit (.source
    "create table a (x integer not null, y integer not null default 0, z integer);
     create table b (x integer)")

theorem reachable_twoTables : Reachable twoTables := (Reachable.empty "" .standard).submit _

/-- The name of a table, and the names and places of its columns with whether they need values. -/
def Table.outline (t : Table) : String × List (String × Nat × Bool) :=
  (t.name, t.columns.map fun c => (c.name, c.position, t.needsValue c))

theorem outline_twoTables : twoTables.tables.map Table.outline =
    [("a", [("x", 0, true), ("y", 1, false), ("z", 2, false)]), ("b", [("x", 0, false)])] := by
  decide +kernel

theorem length_twoTables : twoTables.tables.length = 2 := by
  simpa using congrArg List.length outline_twoTables

theorem zero_lt_length_twoTables : 0 < twoTables.tables.length := by simp [length_twoTables]

theorem one_lt_length_twoTables : 1 < twoTables.tables.length := by simp [length_twoTables]

/-- The table `a`. -/
def firstTable : Table := twoTables.tables.get ⟨0, zero_lt_length_twoTables⟩

/-- The table `b`. -/
def secondTable : Table := twoTables.tables.get ⟨1, one_lt_length_twoTables⟩

theorem firstTable_mem : firstTable ∈ twoTables.tables := List.get_mem _ _

theorem outline_firstTable : firstTable.name = "a" ∧
    (firstTable.columns.map fun c => (c.name, c.position, firstTable.needsValue c)) =
      [("x", 0, true), ("y", 1, false), ("z", 2, false)] := by
  have houtline : some _ = some firstTable.outline :=
    getElem?_of_map_eq outline_twoTables zero_lt_length_twoTables
  rw [Option.some.injEq, Table.outline, Prod.mk.injEq] at houtline
  exact ⟨houtline.1.symm, houtline.2.symm⟩

theorem outline_secondTable : secondTable.name = "b" ∧
    (secondTable.columns.map fun c => (c.name, c.position, secondTable.needsValue c)) =
      [("x", 0, false)] := by
  have houtline : some _ = some secondTable.outline :=
    getElem?_of_map_eq outline_twoTables one_lt_length_twoTables
  rw [Option.some.injEq, Table.outline, Prod.mk.injEq] at houtline
  exact ⟨houtline.1.symm, houtline.2.symm⟩

theorem secondTable_ne_firstTable : secondTable ≠ firstTable := by
  intro heq
  have hname := congrArg Table.name heq
  rw [outline_firstTable.1, outline_secondTable.1] at hname
  exact absurd hname (by decide)

theorem length_firstTable : firstTable.columns.length = 3 := by
  simpa using congrArg List.length outline_firstTable.2

theorem lt_length_firstTable (i : Fin 3) : i.val < firstTable.columns.length := by
  rw [length_firstTable]
  exact i.isLt

theorem zero_lt_length_secondTable : 0 < secondTable.columns.length := by
  have hlength : secondTable.columns.length = 1 := by
    simpa using congrArg List.length outline_secondTable.2
  rw [hlength]
  exact Nat.one_pos

/-- A column of the first table. -/
def firstColumn (i : Fin 3) : ColumnRef :=
  ⟨firstTable, firstTable.columns.get ⟨i, lt_length_firstTable i⟩⟩

/-- The column of the second table. -/
def secondColumn : ColumnRef :=
  ⟨secondTable, secondTable.columns.get ⟨0, zero_lt_length_secondTable⟩⟩

theorem isOf_firstColumn (i : Fin 3) : (firstColumn i).IsOf twoTables :=
  ⟨firstTable_mem, List.get_mem _ _⟩

theorem isOf_secondColumn : secondColumn.IsOf twoTables := ⟨List.get_mem _ _, List.get_mem _ _⟩

theorem table_firstColumn (i : Fin 3) : (firstColumn i).table = firstTable := rfl

theorem table_secondColumn : secondColumn.table = secondTable := rfl

theorem column_firstColumn (i : Fin 3) :
    (firstColumn i).column = firstTable.columns.get ⟨i, lt_length_firstTable i⟩ := rfl

theorem column_secondColumn :
    secondColumn.column = secondTable.columns.get ⟨0, zero_lt_length_secondTable⟩ := rfl

theorem entry_firstColumn (i : Fin 3) :
    [("x", 0, true), ("y", 1, false), ("z", 2, false)][i.val]? =
      some ((firstColumn i).column.name, (firstColumn i).column.position,
        firstTable.needsValue (firstColumn i).column) := by
  rw [column_firstColumn]
  exact getElem?_of_map_eq outline_firstTable.2 (lt_length_firstTable i)

theorem outline_firstColumn (i : Fin 3) : (firstColumn i).column.position = i ∧
    firstTable.needsValue (firstColumn i).column = decide (i = 0) := by
  have houtline : ∀ i : Fin 3, [("x", 0, true), ("y", 1, false), ("z", 2, false)][i.val]?.map
      Prod.snd = some (i.val, decide (i = 0)) := by
    decide
  have hi := houtline i
  rw [entry_firstColumn, Option.map_some, Option.some.injEq, Prod.mk.injEq] at hi
  exact hi

theorem name_firstColumn : (firstColumn 0).column.name = "x" := by
  have hcolumn : some ("x", 0, true) = some _ := entry_firstColumn 0
  rw [Option.some.injEq, Prod.mk.injEq] at hcolumn
  exact hcolumn.1.symm

theorem name_secondColumn : secondColumn.column.name = "x" := by
  have hcolumn : some ("x", 0, false) = some _ :=
    getElem?_of_map_eq outline_secondTable.2 zero_lt_length_secondTable
  rw [Option.some.injEq, Prod.mk.injEq] at hcolumn
  rw [column_secondColumn]
  exact hcolumn.1.symm

theorem firstColumn_eq_iff (i j : Fin 3) :
    (firstColumn i).column = (firstColumn j).column ↔ i = j := by
  refine ⟨fun heq => Fin.ext ?_, fun heq => by rw [heq]⟩
  rw [← (outline_firstColumn i).1, ← (outline_firstColumn j).1, heq]

/-- Only the first column of the first table demands a value. -/
theorem demands_firstTable {c : Column} (hc : c ∈ firstTable.columns) :
    firstTable.Demands c ↔ c = (firstColumn 0).column := by
  obtain ⟨i, rfl⟩ : ∃ i : Fin 3, (firstColumn i).column = c := by
    obtain ⟨⟨i, hi⟩, rfl⟩ := List.mem_iff_get.1 hc
    exact ⟨⟨i, length_firstTable ▸ hi⟩, column_firstColumn _⟩
  rw [← Table.needsValue_iff, firstColumn_eq_iff, (outline_firstColumn i).2, decide_eq_true_iff]

/-- A value for the last column of the first table omits the first column. -/
theorem omitted_firstColumn :
    RowFault [(firstColumn 2, .constant (.int 1))] (.notEnoughValues ["x"]) := by
  have hname : [(firstColumn 0).column].map Column.name = ["x"] := by
    rw [List.map_singleton, name_firstColumn]
  rw [← hname]
  have hc := (isOf_firstColumn 0).column
  refine .omitted (List.cons_ne_nil _ _) (List.forall_mem_singleton.2 rfl)
    (List.singleton_sublist.2 hc) (fun c => ?_) (List.cons_ne_nil _ _)
  rw [List.mem_singleton, List.forall_mem_singleton]
  constructor
  · rintro rfl
    exact ⟨hc, (demands_firstTable hc).2 rfl, (firstColumn_eq_iff 2 0).not.2 (by decide)⟩
  · rintro ⟨hc, hdemands, -⟩
    exact (demands_firstTable hc).1 hdemands

/-- Beside a column of the first table, that of the second one is astray. -/
theorem stray_secondColumn :
    RowFault [(firstColumn 2, .constant (.int 1)), (secondColumn, .constant (.int 1))]
      (.notOfTable "b" "x" "a") := by
  have hfirst := outline_firstTable.1
  have hsecond := outline_secondTable.1
  have hfault : RowFault
      ((firstColumn 2, .constant (.int 1)) :: ([] ++ (secondColumn, .constant (.int 1)) :: []))
      (.notOfTable secondColumn.table.name secondColumn.name (firstColumn 2).table.name) :=
    .stray rfl (List.forall_mem_nil _) secondTable_ne_firstTable
  rwa [table_secondColumn, table_firstColumn, hsecond, hfirst, ColumnRef.name,
    name_secondColumn] at hfault

/-- A value for the first column makes a row. One for the last column alone makes none, since the
first one is missing, and with a value for the other table there is no row either. -/
theorem forRow_twoTables :
    (∃ a, Assignments.forRow [(firstColumn 0, .constant (.int 1))] = .ok a) ∧
    Assignments.forRow [(firstColumn 2, .constant (.int 1))] = .error (.notEnoughValues ["x"]) ∧
    Assignments.forRow [(firstColumn 2, .constant (.int 1)), (secondColumn, .constant (.int 1))] =
      .error (.notOfTable "b" "x" "a") := by
  have hone (i : Fin 3) :
      ∀ v ∈ [(firstColumn i, Expression.constant (.int 1))], v.1.IsOf twoTables :=
    List.forall_mem_singleton.2 (isOf_firstColumn i)
  refine ⟨?_, ?_, ?_⟩
  · refine (forRow_by_demands reachable_twoTables (hone 0)).1.2
      ⟨List.cons_ne_nil _ _, firstTable, List.forall_mem_singleton.2 rfl, ?_⟩
    intro c hc hdemands
    exact ⟨_, List.mem_cons_self, ((demands_firstTable hc).1 hdemands).symm⟩
  · exact ((forRow_by_demands reachable_twoTables (hone 2)).2 _).2 omitted_firstColumn
  · refine ((forRow_by_demands reachable_twoTables ?_).2 _).2 stray_secondColumn
    exact List.forall_mem_cons.2
      ⟨isOf_firstColumn 2, List.forall_mem_singleton.2 isOf_secondColumn⟩

end SqlCatalog
