import SqlCatalog.Token.Basic
import SqlCatalog.TypeName

/-!
# Schemas

A schema is a catalogue of tables, indexes and sequences, each list in the order of declaration.
Tables and sequences are referred to by their places in these lists, columns by their places in
their table.

## Main definitions

* `Table` with its `Column`s, `Constraint`s and seed rows.
* `Sequence`, `Index` and `Schema`.
* `CatalogError` says why a name cannot be found or given.
-/

namespace SqlCatalog

/-- The place of a table in its schema. -/
abbrev TableId := Nat

/-- The place of a sequence in its schema. -/
abbrev SequenceId := Nat

/-! ## Columns -/

/-- What happens to a row when the row it refers to is deleted. -/
inductive DeleteAction where
  | cascade
  | setNull
  | setDefault
deriving DecidableEq

/-- The words for an action. -/
def DeleteAction.text : DeleteAction → String
  | cascade => "cascade"
  | setNull => "set null"
  | setDefault => "set default"

/-- The default that a column declares. -/
inductive DefaultValue where
  | null
  | literal (value : Value)
  /-- The next number of a sequence. -/
  | sequence (id : SequenceId)
  /-- A call that is kept as it is written. -/
  | procedure (name : String) (arguments : List Token)

/-- The text of a call that is kept as it is written. -/
def procedureText (name : String) (arguments : List Token) : String :=
  name ++ (Token.paren arguments).text

/-- A column of the table at `table`, with its place among the columns of that table. -/
structure Column where
  name : String
  table : TableId
  position : Nat
  type : ColumnType
  default : Option DefaultValue
  references : Option TableId
  onDelete : Option DeleteAction

/-! ## Constraints -/

/-- An operand or a comparison of a check constraint. -/
inductive CheckExpr where
  | column (position : Nat)
  | constant (value : Value)
  | call (name : String) (arguments : List CheckExpr)
  | compare (operator : String) (lhs rhs : CheckExpr)

namespace CheckExpr

mutual

/-- The columns of an expression, in the order in which they are written. -/
def columns : CheckExpr → List Nat
  | column i => [i]
  | constant _ => []
  | call _ arguments => columnsAll arguments
  | compare _ lhs rhs => columns lhs ++ columns rhs

/-- The columns of several expressions. -/
def columnsAll : List CheckExpr → List Nat
  | [] => []
  | e :: es => columns e ++ columnsAll es

end

end CheckExpr

/-- A rule that every row of a table obeys. -/
inductive Constraint where
  | notNull (column : Nat)
  | unique (name : Option String) (columns : List Nat)
  | check (name : Option String) (expression : CheckExpr)

/-- The columns that a constraint is about. -/
def Constraint.affected : Constraint → List Nat
  | notNull i => [i]
  | unique _ columns => columns
  | check _ expression => expression.columns

/-! ## Tables, sequences, indexes -/

/-- A row declared with the schema: values by column name, in the order of the columns. -/
abbrev SeedRow := List (String × Value)

/-- A table, at the place `id` of its schema. -/
structure Table where
  id : TableId
  name : String
  /-- The comments before the definition. -/
  comment : String
  columns : List Column
  constraints : List Constraint
  primaryKey : Option (List Nat)
  rows : List SeedRow

/-- A sequence, with the columns that take their default from it. -/
structure Sequence where
  id : SequenceId
  name : String
  users : List (TableId × Nat)
deriving DecidableEq

/-- An index over columns of one table. -/
structure Index where
  name : String
  table : TableId
  unique : Bool
  method : Option String
  columns : List Nat
deriving DecidableEq

/-- A catalogue of tables, indexes and sequences; `source` says where it comes from. -/
structure Schema where
  source : String
  dialect : Dialect
  tables : List Table
  indexes : List Index
  sequences : List Sequence

/-- The schema with nothing in it. -/
def Schema.empty (source : String) (dialect : Dialect) : Schema := ⟨source, dialect, [], [], []⟩

/-! ## Errors -/

/-- The kinds of objects that have names. -/
inductive ObjectKind where
  | table
  | column
  | sequence
  | index
deriving DecidableEq

/-- The word for a kind of object. -/
def ObjectKind.word : ObjectKind → String
  | table => "table"
  | column => "column"
  | sequence => "sequence"
  | index => "index"

/-- Why a name cannot be found or given, or a row not be added. -/
inductive CatalogError where
  | noSuchTable (name : String)
  | noSuchColumn (table column : String)
  | noSuchSequence (name : String)
  | noSuchIndex (name : String)
  | duplicate (kind : ObjectKind) (name : String)
  | tooManyValues (table : String) (columns values : Nat)
deriving DecidableEq

/-- The wording of an error. -/
def CatalogError.message : CatalogError → String
  | noSuchTable name => s!"no such table: {name}"
  | noSuchColumn table column => s!"no such column: {table}.{column}"
  | noSuchSequence name => s!"no such sequence: {name}"
  | noSuchIndex name => s!"no such index: {name}"
  | duplicate kind name => s!"duplicate {kind.word} name: {name}"
  | tooManyValues table columns values =>
    s!"table {table} has {columns} columns but the row has {values} values"

end SqlCatalog
