import SqlCatalog.Schema.Table

/-!
# Names in a schema

Tables, sequences and indexes are found by the part of their name that the dialect's server
keeps. An object can be added only under a name that no object of its kind has.

## Main definitions

* `Schema.tableNamed`, `Schema.sequenceNamed`, `Schema.indexNamed` find objects.
* `Schema.freshTable`, `Schema.addTable`, `Schema.addSequence`, `Schema.addIndex` add them.
-/

namespace SqlCatalog

namespace Schema

/-- Whether two names stand for the same object of the schema. -/
def sameName (s : Schema) (a b : String) : Bool := s.dialect.sameName a b

/-! ## Finding objects -/

/-- The table with the given name. -/
def tableNamed (s : Schema) (name : String) : Except CatalogError Table :=
  match s.tables.find? fun t => s.sameName t.name name with
  | some t => .ok t
  | none => .error (.noSuchTable name)

/-- The sequence with the given name. -/
def sequenceNamed (s : Schema) (name : String) : Except CatalogError Sequence :=
  match s.sequences.find? fun q => s.sameName q.name name with
  | some q => .ok q
  | none => .error (.noSuchSequence name)

/-- The index with the given name. -/
def indexNamed (s : Schema) (name : String) : Except CatalogError Index :=
  match s.indexes.find? fun i => s.sameName i.name name with
  | some i => .ok i
  | none => .error (.noSuchIndex name)

/-- The name of the table at a place, empty where there is none. -/
def tableName (s : Schema) (id : TableId) : String := (s.tables[id]?.map Table.name).getD ""

/-- The name of the sequence at a place, empty where there is none. -/
def sequenceName (s : Schema) (id : SequenceId) : String :=
  (s.sequences[id]?.map Sequence.name).getD ""

/-! ## Adding objects -/

/-- An empty table with a name that is still free, for the next place of the schema. -/
def freshTable (s : Schema) (name : String) : Except CatalogError Table :=
  match s.tableNamed name with
  | .ok _ => .error (.duplicate .table name)
  | .error _ => .ok (.empty s.tables.length name)

/-- Adds a table that was made for the next place of the schema, if its name is still free. -/
def addTable (s : Schema) (t : Table) : Except CatalogError Schema :=
  if t.id ≠ s.tables.length then .error (.duplicate .table t.name)
  else
    match s.tableNamed t.name with
    | .ok _ => .error (.duplicate .table t.name)
    | .error _ => .ok { s with tables := s.tables ++ [t] }

/-- Changes the table at a place. -/
def modifyTable (s : Schema) (id : TableId) (change : Table → Table) : Schema :=
  { s with tables := s.tables.modify id change }

/-- Adds a sequence with a name that is still free. -/
def addSequence (s : Schema) (name : String) : Except CatalogError Schema :=
  match s.sequenceNamed name with
  | .ok _ => .error (.duplicate .sequence name)
  | .error _ => .ok { s with sequences := s.sequences ++ [⟨s.sequences.length, name, []⟩] }

/-- Notes that a column takes its default from a sequence. -/
def addUser (s : Schema) (id : SequenceId) (user : TableId × Nat) : Schema :=
  { s with sequences := s.sequences.modify id fun q => { q with users := q.users ++ [user] } }

/-- Adds an index with a name that is still free. -/
def addIndex (s : Schema) (index : Index) : Except CatalogError Schema :=
  match s.indexNamed index.name with
  | .ok _ => .error (.duplicate .index index.name)
  | .error _ => .ok { s with indexes := s.indexes ++ [index] }

end Schema

end SqlCatalog
