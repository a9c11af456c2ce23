import SqlCatalog.Schema.PseudoIndex

/-!
# Discrepancies between schemas

Two schemas are compared name by name. What only the first has is extra, what only the second has
is missing, and what both have is compared in turn: the columns of a table by the families of
their types, an index by its table and its uniqueness. The first schema's dialect decides which
names are equal and which types belong together.

## Main definitions

* `Discrepancy` is one finding, `Discrepancy.message` its wording.
* `Pairing` sorts two lists of named objects into extra, missing and matched ones.
* `Column.discrepancies`, `Table.discrepancies`, `PseudoIndex.discrepancies` and
  `Schema.discrepancies` compare.
-/

namespace SqlCatalog

/-- A difference between two schemas, from the view of the first. -/
inductive Discrepancy where
  | extraColumn (table column : String)
  | missingColumn (table column : String)
  | columnType (table column : String) (mine theirs : ColumnType)
  | indexTable (index table : String)
  | indexUnique (index : String)
  | extra (source : String) (kind : ObjectKind) (name : String)
  | missing (source : String) (kind : ObjectKind) (name : String)
deriving DecidableEq

/-- The wording of a finding. -/
def Discrepancy.message : Discrepancy → String
  | extraColumn table column => s!"Table: {table}, extra column: {column}"
  | missingColumn table column => s!"Table: {table}, missing column: {column}"
  | columnType table column mine theirs =>
    s!"Table: {table}, mismatched column type: {column} ({mine.text} vs {theirs.text})"
  | indexTable index table => s!"Pseudo index: {index}, mismatched table: {table}"
  | indexUnique index => s!"Pseudo index: {index}, mismatched unique"
  | extra source kind name => s!"Schema: {source}, extra {kind.word}: {name}"
  | missing source kind name => s!"Schema: {source}, missing {kind.word}: {name}"

/-! ## Columns, tables, indexes -/

/-- Columns differ when their types belong to different families. -/
def Column.discrepancies (d : Dialect) (owner : String) (mine theirs : Column) :
    List Discrepancy :=
  if typeFamily d mine.type.name == typeFamily d theirs.type.name then []
  else [.columnType owner mine.name mine.type theirs.type]

/-- Columns of types of one family have no discrepancies, and no others. -/
theorem Column.discrepancies_eq_nil_iff {d : Dialect} {owner : String} {mine theirs : Column} :
    mine.discrepancies d owner theirs = [] ↔
      typeFamily d mine.type.name = typeFamily d theirs.type.name := by
  simp [Column.discrepancies]

/-- Tables differ in the columns that only one has, and in the types of the others. -/
def Table.discrepancies (d : Dialect) (mine theirs : Table) : List Discrepancy :=
  (mine.columns.filter fun c => !theirs.hasColumn c.name).map (.extraColumn mine.name ·.name)
    ++ (theirs.columns.filter fun c => !mine.hasColumn c.name).map (.missingColumn mine.name ·.name)
    ++ mine.columns.flatMap fun c =>
      match theirs.columnNamed c.name with
      | .ok other => c.discrepancies d mine.name other
      | .error _ => []

/-- Indexes of one name differ when they stand on other tables or only one is unique. -/
def PseudoIndex.discrepancies (mine theirs : PseudoIndex) : List Discrepancy :=
  (if sameIgnoringCase mine.table.name theirs.table.name then []
    else [.indexTable mine.name theirs.table.name])
    ++ if mine.unique == theirs.unique then [] else [.indexUnique mine.name]

/-! ## Schemas -/

/-- Two lists of named objects, sorted out by a key of their names. -/
structure Pairing (α : Type) where
  extra : List α
  missing : List α
  matched : List (α × α)

/-- Finds for each object the first one of the other list whose name has the same key. -/
def Pairing.of {α : Type} (key : String → String) (name : α → String) (mine theirs : List α) :
    Pairing α :=
  let among (others : List α) (a : α) := others.find? fun b => key (name b) == key (name a)
  { extra := mine.filter fun a => (among theirs a).isNone
    missing := theirs.filter fun b => (among mine b).isNone
    matched := mine.filterMap fun a => (among theirs a).map (a, ·) }

/-- The objects without a partner, as findings about the schema from `source`. -/
def Pairing.unmatched {α : Type} (p : Pairing α) (source : String) (kind : ObjectKind)
    (name : α → String) : List Discrepancy :=
  p.extra.map (fun a => .extra source kind (name a))
    ++ p.missing.map fun b => .missing source kind (name b)

/-- All differences, from the view of the first schema, given the indexes of both: tables,
indexes, sequences. Names of indexes are made up of other names and so are not cut. -/
def Schema.discrepanciesOver (mine theirs : Schema) (myIndexes theirIndexes : List PseudoIndex) :
    List Discrepancy :=
  let key := mine.dialect.identifierKey
  let tables := Pairing.of key Table.name mine.tables theirs.tables
  let indexes := Pairing.of lower PseudoIndex.name myIndexes theirIndexes
  let sequences := Pairing.of key Sequence.name mine.sequences theirs.sequences
  tables.unmatched theirs.source .table Table.name
    ++ tables.matched.flatMap (fun p => p.1.discrepancies mine.dialect p.2)
    ++ indexes.unmatched theirs.source .index PseudoIndex.name
    ++ indexes.matched.flatMap (fun p => p.1.discrepancies p.2)
    ++ sequences.unmatched theirs.source .sequence Sequence.name

/-- All differences, from the view of the first schema. -/
def Schema.discrepancies (mine theirs : Schema) : List Discrepancy :=
  mine.discrepanciesOver theirs mine.pseudoIndexes theirs.pseudoIndexes

/-- The report of one schema against another, line by line. -/
def Schema.report (mine theirs : Schema) : List String :=
  (mine.discrepancies theirs).map Discrepancy.message

end SqlCatalog
