import SqlCatalog.Definition.Table
import SqlCatalog.Proofs.Catalog.Transport
import SqlCatalog.Proofs.Lists
import SqlCatalog.Proofs.Token.LetterCase

/-!
# The case of letters in names

The names in a schema keep the letters they were declared with, but no look-up tells apart names
that differ in the case of ASCII letters. So what is found in a schema with its names folded is what
is found in the schema itself, folded, and what is added to it is added folded.

## Main definitions

* `Schema.folded` is a schema with the ASCII letters of its names in lower case. Comments, values
  and the name of its source stay as they are.
* `CompileError.folded` folds the names and words in an error, and `caseFolding` puts both together.

## Main statements

* `tableNamed_folded` and its kin: what is found.
* `addTable_folded` and its kin: what is added.
-/

namespace SqlCatalog

open Token (foldedAll)

/-! ## Folded schemas -/

/-- The type with the letters of its name folded. -/
def ColumnType.folded (t : ColumnType) : ColumnType := { t with name := asciiLower t.name }

/-- The default with the letters of a call folded. -/
def DefaultValue.folded : DefaultValue → DefaultValue
  | procedure name arguments => procedure (asciiLower name) (foldedAll false arguments)
  | value => value

/-- The column with the letters of its names folded. -/
def Column.folded (c : Column) : Column :=
  { c with
    name := asciiLower c.name
    type := c.type.folded
    default := c.default.map DefaultValue.folded }

namespace CheckExpr

mutual

/-- The expression with the letters of functions folded. -/
def folded : CheckExpr → CheckExpr
  | column i => column i
  | constant value => constant value
  | call name arguments => call (asciiLower name) (allFolded arguments)
  | compare operator lhs rhs => compare operator (folded lhs) (folded rhs)

/-- The expressions with the letters of functions folded. -/
def allFolded : List CheckExpr → List CheckExpr
  | [] => []
  | e :: es => folded e :: allFolded es

end

end CheckExpr

/-- The constraint with the letters of its names folded. -/
def Constraint.folded : Constraint → Constraint
  | notNull i => notNull i
  | unique name columns => unique (name.map asciiLower) columns
  | check name expression => check (name.map asciiLower) expression.folded

/-- The row with the letters of column names folded. -/
def foldRow (row : SeedRow) : SeedRow := row.map fun entry => (asciiLower entry.1, entry.2)

/-- The table with the letters of its names folded. -/
def Table.folded (t : Table) : Table :=
  { t with
    name := asciiLower t.name
    columns := t.columns.map Column.folded
    constraints := t.constraints.map Constraint.folded
    rows := t.rows.map foldRow }

/-- The sequence with the letters of its name folded. -/
def Sequence.folded (q : Sequence) : Sequence := { q with name := asciiLower q.name }

/-- The index with the letters of its names folded. -/
def Index.folded (i : Index) : Index :=
  { i with name := asciiLower i.name, method := i.method.map asciiLower }

/-- The schema with the letters of its names folded. -/
def Schema.folded (s : Schema) : Schema :=
  { s with
    tables := s.tables.map Table.folded
    indexes := s.indexes.map Index.folded
    sequences := s.sequences.map Sequence.folded }

/-! ## Folded errors -/

/-- The error with the letters of its names folded. A sequence that is looked up is named by a
string literal. -/
def CatalogError.folded : CatalogError → CatalogError
  | noSuchTable name => noSuchTable (asciiLower name)
  | noSuchColumn table column => noSuchColumn (asciiLower table) (asciiLower column)
  | noSuchSequence name => noSuchSequence name
  | noSuchIndex name => noSuchIndex (asciiLower name)
  | duplicate kind name => duplicate kind (asciiLower name)
  | tooManyValues table columns values => tooManyValues (asciiLower table) columns values

/-- The error with the letters of its names and words folded. -/
def CompileError.folded : CompileError → CompileError
  | violated expected got => violated expected (got.map (Token.folded false))
  | invalidLiteral kind text => invalidLiteral kind text
  | unsupported beginning => unsupported (foldedAll false beginning)
  | lex cause => lex cause
  | catalog cause => catalog cause.folded

/-- Folding the letters in errors and schemas. -/
def caseFolding : Transport := ⟨CompileError.folded, Schema.folded⟩

/-- What a schema answers, with the error folded or else the result changed. -/
def catalogAnswer {α β : Type} (f : α → β) : Except CatalogError α → Except CatalogError β
  | .ok a => .ok (f a)
  | .error e => .error e.folded

/-- Passing an error of the catalog on commutes with folding it. -/
theorem fromCatalog_folded {α β : Type} {f : α → β} {x : Except CatalogError α}
    {y : Except CatalogError β} (h : y = catalogAnswer f x) :
    fromCatalog y = caseFolding.answer f (fromCatalog x) := by
  subst h
  cases x <;> rfl

/-! ## Columns -/

section Columns

variable (t : Table)

theorem hasColumn_folded (name : String) :
    t.folded.hasColumn (asciiLower name) = t.hasColumn name := by
  rw [Table.hasColumn, Table.folded, List.any_map, Table.hasColumn]
  exact congrArg (List.any t.columns) (funext fun c => sameIgnoringCase_asciiLower c.name name)

/-- A folded name finds the same place in the folded table. -/
theorem columnIndex_folded (name : String) :
    t.folded.columnIndex (asciiLower name) = catalogAnswer id (t.columnIndex name) := by
  have hfind : (t.folded.columns.findIdx? fun c => sameIgnoringCase c.name (asciiLower name)) =
      t.columns.findIdx? fun c => sameIgnoringCase c.name name := by
    rw [Table.folded, List.findIdx?_map]
    exact congrArg (List.findIdx? · t.columns)
      (funext fun c => sameIgnoringCase_asciiLower c.name name)
  rw [Table.columnIndex, hfind, Table.columnIndex]
  cases t.columns.findIdx? fun c => sameIgnoringCase c.name name <;> rfl

theorem columnIndexes_folded (names : List String) :
    t.folded.columnIndexes (names.map asciiLower) = catalogAnswer id (t.columnIndexes names) := by
  unfold Table.columnIndexes
  induction names with
  | nil => rfl
  | cons name names ih =>
    rw [List.map_cons, List.mapM_cons, columnIndex_folded, ih, List.mapM_cons]
    cases t.columnIndex name with
    | error e => rfl
    | ok i => cases names.mapM t.columnIndex <;> rfl

/-- Folding commutes with adding a column, the refusal of a name that is taken included. -/
theorem addColumn_folded (name : String) (type : ColumnType) :
    t.folded.addColumn (asciiLower name) type.folded =
      catalogAnswer Table.folded (t.addColumn name type) := by
  rw [Table.addColumn, hasColumn_folded, Table.addColumn]
  split
  · have hname : asciiLower (t.name ++ "." ++ name) =
        asciiLower t.name ++ "." ++ asciiLower name := by
      rw [asciiLower_append, asciiLower_append]
      rfl
    exact congrArg (fun name => Except.error (CatalogError.duplicate .column name)) hname.symm
  · simp [catalogAnswer, Table.folded, Column.folded]

theorem addRow_folded (values : List Value) :
    t.folded.addRow values = catalogAnswer Table.folded (t.addRow values) := by
  have hlength : t.folded.columns.length = t.columns.length := List.length_map _
  have hrow : (t.folded.columns.map Column.name).zip values =
      foldRow ((t.columns.map Column.name).zip values) := by
    rw [Table.folded, List.map_map]
    show List.zip (t.columns.map (asciiLower ∘ Column.name)) values = _
    rw [← List.map_map, List.zip_map_left]
    rfl
  rw [Table.addRow, hlength, hrow, Table.addRow]
  split
  · rfl
  · simp [catalogAnswer, Table.folded]

theorem addConstraint_folded (c : Constraint) :
    t.folded.addConstraint c.folded = (t.addConstraint c).folded := by
  simp [Table.addConstraint, Table.folded]

theorem modifyColumn_folded (i : Nat) {f g : Column → Column}
    (h : ∀ c, g c.folded = (f c).folded) :
    t.folded.modifyColumn i g = (t.modifyColumn i f).folded := by
  rw [Table.modifyColumn, Table.modifyColumn, Table.folded, Table.folded, modify_map h]

theorem primaryKeyColumns_folded :
    t.folded.primaryKeyColumns = t.primaryKeyColumns.map Column.folded := by
  rw [Table.primaryKeyColumns, Table.primaryKeyColumns, List.map_filterMap]
  exact congrArg (List.filterMap · (t.primaryKey.getD [])) (funext fun i => List.getElem?_map)

end Columns

/-! ## Objects of a schema -/

section Objects

variable (s : Schema)

/-- What is found by name is found under any name that differs in the case of ASCII letters. -/
theorem find?_folded {α : Type} (name : α → String) {fold : α → α}
    (hfold : ∀ a, name (fold a) = asciiLower (name a)) {n m : String}
    (hname : s.dialect.identifierKey m = s.dialect.identifierKey n) (l : List α) :
    ((l.map fold).find? fun a => s.sameName (name a) m) =
      (l.find? fun a => s.sameName (name a) n).map fold := by
  have hsame : (fun a => s.sameName (name a) m) ∘ fold = fun a => s.sameName (name a) n := by
    funext a
    show s.dialect.sameName (name (fold a)) m = s.dialect.sameName (name a) n
    rw [hfold, Dialect.sameName, identifierKey_asciiLower, hname, Dialect.sameName]
  rw [List.find?_map, hsame]

theorem find?_tables_folded (name : String) :
    (s.folded.tables.find? fun t => s.folded.sameName t.name (asciiLower name)) =
      (s.tables.find? fun t => s.sameName t.name name).map Table.folded :=
  find?_folded s Table.name (fun _ => rfl) (identifierKey_asciiLower s.dialect name) s.tables

theorem find?_sequences_folded {n m : String}
    (h : s.dialect.identifierKey m = s.dialect.identifierKey n) :
    (s.folded.sequences.find? fun q => s.folded.sameName q.name m) =
      (s.sequences.find? fun q => s.sameName q.name n).map Sequence.folded :=
  find?_folded s Sequence.name (fun _ => rfl) h s.sequences

theorem find?_indexes_folded (name : String) :
    (s.folded.indexes.find? fun i => s.folded.sameName i.name (asciiLower name)) =
      (s.indexes.find? fun i => s.sameName i.name name).map Index.folded :=
  find?_folded s Index.name (fun _ => rfl) (identifierKey_asciiLower s.dialect name) s.indexes

/-- Folding commutes with looking up a table, the error of a missing one included. -/
theorem tableNamed_folded (name : String) :
    s.folded.tableNamed (asciiLower name) = catalogAnswer Table.folded (s.tableNamed name) := by
  rw [Schema.tableNamed, find?_tables_folded, Schema.tableNamed]
  cases s.tables.find? fun t => s.sameName t.name name <;> rfl

/-- A sequence is looked up by a string literal, of which nothing is folded. -/
theorem sequenceNamed_folded (name : String) :
    s.folded.sequenceNamed name = catalogAnswer Sequence.folded (s.sequenceNamed name) := by
  rw [Schema.sequenceNamed, find?_sequences_folded s rfl, Schema.sequenceNamed]
  cases s.sequences.find? fun q => s.sameName q.name name <;> rfl

/-- Folding commutes with beginning a table under a free name. -/
theorem freshTable_folded (name : String) :
    s.folded.freshTable (asciiLower name) = catalogAnswer Table.folded (s.freshTable name) := by
  have hlength : s.folded.tables.length = s.tables.length := List.length_map _
  rw [Schema.freshTable, tableNamed_folded, hlength, Schema.freshTable]
  cases s.tableNamed name <;> rfl

/-- Folding commutes with adding a table. -/
theorem addTable_folded (t : Table) :
    s.folded.addTable t.folded = catalogAnswer Schema.folded (s.addTable t) := by
  have hlength : s.folded.tables.length = s.tables.length := List.length_map _
  have hnamed : s.folded.tableNamed t.folded.name =
      catalogAnswer Table.folded (s.tableNamed t.name) := tableNamed_folded s t.name
  have htables : (s.tables ++ [t]).map Table.folded = s.folded.tables ++ [t.folded] :=
    List.map_append
  rw [Schema.addTable, hlength, hnamed, Schema.addTable]
  show (if t.id ≠ s.tables.length then _ else _) = _
  split
  · rfl
  · cases s.tableNamed t.name with
    | ok u => rfl
    | error e => simp [catalogAnswer, Schema.folded]

theorem addSequence_folded (name : String) :
    s.folded.addSequence (asciiLower name) =
      catalogAnswer Schema.folded (s.addSequence name) := by
  have hlength : s.folded.sequences.length = s.sequences.length := List.length_map _
  rw [Schema.addSequence, Schema.sequenceNamed,
    find?_sequences_folded s (identifierKey_asciiLower s.dialect name), hlength,
    Schema.addSequence, Schema.sequenceNamed]
  cases s.sequences.find? fun q => s.sameName q.name name with
  | some q => rfl
  | none => simp [catalogAnswer, Schema.folded, Sequence.folded]

theorem addIndex_folded (i : Index) :
    s.folded.addIndex i.folded = catalogAnswer Schema.folded (s.addIndex i) := by
  have hfind : (s.folded.indexes.find? fun j => s.folded.sameName j.name i.folded.name) =
      (s.indexes.find? fun j => s.sameName j.name i.name).map Index.folded :=
    find?_indexes_folded s i.name
  rw [Schema.addIndex, Schema.indexNamed, hfind, Schema.addIndex, Schema.indexNamed]
  cases s.indexes.find? fun j => s.sameName j.name i.name with
  | some j => rfl
  | none => simp [catalogAnswer, Schema.folded]

theorem addUser_folded (id : SequenceId) (user : TableId × Nat) :
    s.folded.addUser id user = (s.addUser id user).folded := by
  let withUser (q : Sequence) : Sequence := { q with users := q.users ++ [user] }
  exact congrArg (fun sequences => { s.folded with sequences := sequences })
    (modify_map (f := Sequence.folded) (g := withUser) (h := withUser) (fun _ => rfl)
      s.sequences id)

theorem modifyTable_folded (id : TableId) (t : Table) :
    (s.folded.modifyTable id fun _ => t.folded) = (s.modifyTable id fun _ => t).folded :=
  congrArg (fun tables => { s.folded with tables := tables })
    (modify_map (f := Table.folded) (g := fun _ => t.folded) (fun _ => rfl) s.tables id)

end Objects

end SqlCatalog
