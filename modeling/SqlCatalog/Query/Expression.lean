import SqlCatalog.Schema.Table

/-!
# Expressions, comparisons, sources and selections

The syntax of queries over the columns of a schema. An expression can hold a selection, a
selection has a source, a source can hold comparisons, and these compare expressions, so the four
are defined together. Tables are told apart by their places alone.

## Main definitions

* `ColumnRef` is a column with its table, `Operator` an operator.
* `Parameter` stands for a value, or for several, that are given later.
* `Expression`, `Comparison`, `Source`, `Select` are the four kinds of syntax.
* `Source.tables` are the tables of a source, `Expression.columns` the columns of an expression.
-/

namespace SqlCatalog

/-! ## Leaves -/

/-- A column together with the table it belongs to. -/
structure ColumnRef where
  table : Table
  column : Column

namespace ColumnRef

/-- The name of the column. -/
def name (c : ColumnRef) : String := c.column.name

/-- Whether every new row of its table must give the column a value. -/
def needsValue (c : ColumnRef) : Bool := c.table.needsValue c.column

/-- Whether the table of the column is among the given ones. -/
def belongsTo (c : ColumnRef) (tables : List Table) : Bool :=
  tables.any fun t => t.id == c.table.id

end ColumnRef

/-- The columns of a table. -/
def Table.refs (t : Table) : List ColumnRef := t.columns.map (⟨t, ·⟩)

/-- The column of a table with the given name. -/
def Table.ref (t : Table) (name : String) : Except CatalogError ColumnRef :=
  (⟨t, ·⟩) <$> t.columnNamed name

/-- An operator between two operands. -/
inductive Operator where
  | eq | ne | gt | ge | lt | le
  | plus | minus | concat
  | like | isIn | notIn
  | and | or
deriving DecidableEq

namespace Operator

/-- The spelling of an operator. -/
def text : Operator → String
  | eq => "="
  | ne => "!="
  | gt => ">"
  | ge => ">="
  | lt => "<"
  | le => "<="
  | plus => "+"
  | minus => "-"
  | concat => "||"
  | like => "like"
  | isIn => "in"
  | notIn => "not in"
  | and => "and"
  | or => "or"

/-- All operators. -/
def all : List Operator :=
  [eq, ne, gt, ge, lt, le, plus, minus, concat, like, isIn, notIn, and, or]

/-- The operator with the given spelling. -/
def ofText? (s : String) : Option Operator := all.find? fun o => o.text == s

end Operator

/-- A name for a value that is given later, or for a list of `count` values. -/
structure Parameter where
  name : String
  count : Option Nat
deriving DecidableEq

/-- The kinds of joins that have a condition. -/
inductive JoinKind where
  | plain
  | inner
  | leftOuter
  | rightOuter
  | fullOuter
deriving DecidableEq

/-- The words before `join`. -/
def JoinKind.text : JoinKind → String
  | plain => ""
  | inner => "inner "
  | leftOuter => "left outer "
  | rightOuter => "right outer "
  | fullOuter => "full outer "

/-- The direction in which rows are ordered. -/
inductive Direction where
  | ascending
  | descending
deriving DecidableEq

/-- How the selected rows are locked for a change: by waiting for other locks, or not. -/
inductive RowLock where
  | wait
  | noWait
deriving DecidableEq

/-! ## Syntax -/

mutual

/-- A term of a query. -/
inductive Expression where
  | column (c : ColumnRef)
  /-- A value that is passed as an argument. -/
  | constant (value : Value)
  | parameter (p : Parameter)
  | tuple (items : List Expression)
  | call (name : String) (arguments : List Expression)
  /-- A text that is written as it is. -/
  | verbatim (text : String)
  | subquery (select : Select)
  | binary (operator : Operator) (lhs rhs : Expression)

/-- A condition of a query. -/
inductive Comparison where
  /-- Whether the operand is null, or is not. -/
  | null (operand : Expression) (negated : Bool)
  /-- A column against a column. -/
  | columns (operator : Operator) (lhs rhs : ColumnRef)
  /-- Any operands. -/
  | operands (operator : Operator) (lhs rhs : Expression)
  | compound (operator : Operator) (lhs rhs : Comparison)

/-- What a selection selects from. -/
inductive Source where
  | table (t : Table)
  | join (kind : JoinKind) (left right : Source) (on : Comparison)
  /-- A join of all rows with all rows, which has no condition. -/
  | crossJoin (left right : Source)

/-- A selection. No columns stand for all columns. -/
structure Select where
  columns : List Expression
  source : Source
  condition : Option Comparison
  groupBy : List Expression
  having : Option Comparison
  orderBy : List Expression
  direction : Option Direction
  distinct : Bool
  limit : Option Expression
  lock : Option RowLock

end

/-! ## Tables and columns -/

/-- The tables of a source, from left to right. -/
def Source.tables : Source → List Table
  | table t => [t]
  | join _ left right _ => left.tables ++ right.tables
  | crossJoin left right => left.tables ++ right.tables

/-- The tables of the source of a selection. -/
def Select.tables (s : Select) : List Table := s.source.tables

mutual

/-- The columns of an expression, without those of the selections in it. -/
def Expression.columns : Expression → List ColumnRef
  | .column c => [c]
  | .tuple items => Expression.columnsAll items
  | .call _ arguments => Expression.columnsAll arguments
  | .binary _ lhs rhs => lhs.columns ++ rhs.columns
  | .constant _ | .parameter _ | .verbatim _ | .subquery _ => []

/-- The columns of several expressions. -/
def Expression.columnsAll : List Expression → List ColumnRef
  | [] => []
  | e :: es => e.columns ++ Expression.columnsAll es

end

end SqlCatalog
