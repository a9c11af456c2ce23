import SqlCatalog.Query.Error

/-!
# Values for columns

New rows and changes of rows give values to columns of one table. The columns are written in the
order of their names, and of two values for a column the later one counts.

## Main definitions

* `putByName` keeps a list of named things in the order of the names.
* `Assignments` are values for columns of one table, and `Assignments.of` checks and sorts them.
* `Assignments.missing` are the columns that need a value and have none.
-/

namespace SqlCatalog

/-! ## Lists in the order of names -/

/-- Puts something at the place of its name, instead of what had that name. -/
def putByName {α : Type} (name : String) (a : α) : List (String × α) → List (String × α)
  | [] => [(name, a)]
  | (other, b) :: rest =>
    if name == other then (name, a) :: rest
    else if name < other then (name, a) :: (other, b) :: rest
    else (other, b) :: putByName name a rest

/-- The things in the order of their names; of two with the same name the later one. -/
def sortByName {α : Type} (items : List (String × α)) : List (String × α) :=
  items.foldl (fun sorted item => putByName item.1 item.2 sorted) []

/-! ## Assignments -/

/-- Values for columns of a table, in the order of the names of the columns. -/
structure Assignments where
  table : Table
  values : List (ColumnRef × Expression)

namespace Assignments

/-- The given values, which must be for columns of one table, that of the first. -/
def of (values : List (ColumnRef × Expression)) : Except QueryError Assignments :=
  match values with
  | [] => .error .emptyColumnMap
  | (first, _) :: _ =>
    match values.find? fun v => v.1.table.id != first.table.id with
    | some (stray, _) => .error (.notOfTable stray.table.name stray.name first.table.name)
    | none =>
      .ok ⟨first.table, (sortByName (values.map fun v => (v.1.name, v))).map Prod.snd⟩

/-- The columns of the table that need a value in a new row and are given none. -/
def missing (a : Assignments) : List String :=
  let isGiven (c : Column) : Bool := a.values.any fun v => v.1.column.position == c.position
  (a.table.columns.filter fun c => a.table.needsValue c && !isGiven c).map Column.name

/-- The given values for a new row, among which none is missing. -/
def forRow (values : List (ColumnRef × Expression)) : Except QueryError Assignments := do
  let a ← of values
  if a.missing.isEmpty then return a else .error (.notEnoughValues a.missing)

end Assignments

end SqlCatalog
