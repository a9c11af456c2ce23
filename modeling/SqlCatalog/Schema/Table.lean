import SqlCatalog.Schema.Basic

/-!
# Tables

Columns are found by name, in any letter case, and no two columns of a table have the same name.
A column that may not be null and declares no default needs a value in every row.

## Main definitions

* `Table.columnIndex`, `Table.columnNamed`, `Table.hasColumn` find columns.
* `Table.addColumn`, `Table.addRow` and their kin extend a table.
* `Table.canBeNull`, `Table.needsValue` say what a row must hold.
-/

namespace SqlCatalog

namespace Table

/-- A table without columns. -/
def empty (id : TableId) (name : String) : Table := ⟨id, name, "", [], [], none, []⟩

/-! ## Finding columns -/

/-- Whether a column has the name `name`, in any letter case. -/
def hasColumn (t : Table) (name : String) : Bool :=
  t.columns.any fun c => sameIgnoringCase c.name name

/-- The place of the column with the name `name`. -/
def columnIndex (t : Table) (name : String) : Except CatalogError Nat :=
  match t.columns.findIdx? fun c => sameIgnoringCase c.name name with
  | some i => .ok i
  | none => .error (.noSuchColumn t.name name)

/-- The column with the name `name`. -/
def columnNamed (t : Table) (name : String) : Except CatalogError Column :=
  match t.columns.find? fun c => sameIgnoringCase c.name name with
  | some c => .ok c
  | none => .error (.noSuchColumn t.name name)

/-- The places of the columns with the given names; the first name that is not found is reported. -/
def columnIndexes (t : Table) (names : List String) : Except CatalogError (List Nat) :=
  names.mapM t.columnIndex

/-- The name of the column at a place, empty where there is none. -/
def columnName (t : Table) (i : Nat) : String := (t.columns[i]?.map Column.name).getD ""

/-! ## Extending a table -/

/-- Adds a column at the end. -/
def addColumn (t : Table) (name : String) (type : ColumnType) : Except CatalogError Table :=
  if t.hasColumn name then .error (.duplicate .column s!"{t.name}.{name}")
  else
    .ok { t with columns := t.columns ++ [⟨name, t.id, t.columns.length, type, none, none, none⟩] }

/-- Adds a constraint after the others. -/
def addConstraint (t : Table) (c : Constraint) : Table :=
  { t with constraints := t.constraints ++ [c] }

/-- Changes the column at a place. -/
def modifyColumn (t : Table) (i : Nat) (change : Column → Column) : Table :=
  { t with columns := t.columns.modify i change }

/-- Adds a seed row. The values are those of the first columns, and there are not more of them. -/
def addRow (t : Table) (values : List Value) : Except CatalogError Table :=
  if t.columns.length < values.length then
    .error (.tooManyValues t.name t.columns.length values.length)
  else .ok { t with rows := t.rows ++ [(t.columns.map Column.name).zip values] }

/-! ## What a table says about its columns -/

/-- The column lists of the unique constraints. -/
def uniques (t : Table) : List (List Nat) :=
  t.constraints.filterMap fun
    | .unique _ columns => some columns
    | _ => none

/-- The unique column lists of a table are those of its unique constraints, whatever their names.
-/
theorem mem_uniques_iff {t : Table} {columns : List Nat} :
    columns ∈ t.uniques ↔ ∃ name, .unique name columns ∈ t.constraints := by
  rw [uniques, List.mem_filterMap]
  constructor
  · rintro ⟨c, hc, hcolumns⟩
    cases c with
    | unique name columns' =>
      obtain rfl : columns' = columns := Option.some.inj hcolumns
      exact ⟨name, hc⟩
    | _ => cases hcolumns
  · rintro ⟨name, hc⟩
    exact ⟨_, hc, rfl⟩

/-- Whether no constraint forbids that the column is null. -/
def canBeNull (t : Table) (c : Column) : Bool :=
  !t.constraints.any fun
    | .notNull i => i == c.position
    | _ => false

/-- Whether every new row must give the column a value. -/
def needsValue (t : Table) (c : Column) : Bool := !t.canBeNull c && c.default.isNone

/-- The columns of the primary key. -/
def primaryKeyColumns (t : Table) : List Column :=
  (t.primaryKey.getD []).filterMap (t.columns[·]?)

end Table

end SqlCatalog
