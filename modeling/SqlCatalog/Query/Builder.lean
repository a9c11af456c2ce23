import SqlCatalog.Query.Error

/-!
# Building queries

Comparisons, patterns and joins are built from their parts by rules that keep them meaningful: a
comparison for equality with null asks whether the other side is null, a parameter on the right of
`in` stands between parentheses, and a join has a condition unless it is a cross join.

## Main definitions

* `Comparison.of` compares two expressions.
* `Expression.isIn`, `Expression.notIn` test for membership.
* `Expression.startsWith`, `Expression.endsWith`, `Expression.contains` test for a pattern.
* `Source.joined` joins two sources, `Select.of` selects expressions from a source.
-/

namespace SqlCatalog

/-! ## Comparisons -/

/-- Compares two expressions. -/
def Comparison.of (operator : Operator) (lhs rhs : Expression) : Comparison :=
  match operator, rhs with
  | .eq, .constant .null => .null lhs false
  | .ne, .constant .null => .null lhs true
  | _, _ =>
    match lhs, rhs with
    | .column a, .column b => .columns operator a b
    | _, _ => .operands operator lhs rhs

namespace Comparison

/-- Both conditions hold. -/
def and (a b : Comparison) : Comparison := .compound .and a b

/-- One of the conditions holds. -/
def or (a b : Comparison) : Comparison := .compound .or a b

end Comparison

namespace Expression

/-- The values as constants of a tuple. -/
def ofValues (values : List Value) : Expression := .tuple (values.map .constant)

/-- The right side of a test for membership; a parameter gets parentheses. -/
def asCollection : Expression → Expression
  | .parameter p => .tuple [.parameter p]
  | e => e

/-- Whether an expression is among others. -/
def isIn (a b : Expression) : Comparison := .operands .isIn a b.asCollection

/-- Whether an expression is not among others. -/
def notIn (a b : Expression) : Comparison := .operands .notIn a b.asCollection

/-! ## Patterns -/

/-- The pattern that matches any text. -/
def anyText : Expression := .constant (.text "%")

/-- Two texts, one after the other. -/
def concat (a b : Expression) : Expression := .binary .concat a b

/-- Whether a text begins with `value`. -/
def startsWith (a : Expression) (value : Value) : Comparison :=
  .operands .like a (concat (.constant value) anyText)

/-- Whether a text ends with `value`. -/
def endsWith (a : Expression) (value : Value) : Comparison :=
  .operands .like a (concat anyText (.constant value))

/-- Whether a text contains `value`. -/
def contains (a : Expression) (value : Value) : Comparison :=
  .operands .like a (concat (concat anyText (.constant value)) anyText)

end Expression

/-! ## Sources and selections -/

/-- Joins two sources; `none` stands for the cross join. -/
def Source.joined (kind : Option JoinKind) (left right : Source) (on : Option Comparison) :
    Except QueryError Source :=
  match kind, on with
  | some kind, some on => .ok (.join kind left right on)
  | none, none => .ok (.crossJoin left right)
  | kind, _ => .error (.joinCondition kind)

/-- Selects all columns of a source. -/
def Select.all (source : Source) : Select :=
  ⟨[], source, none, [], none, [], none, false, none, none⟩

/-- Selects expressions over the columns of a source. -/
def Select.of (columns : List Expression) (source : Source) : Except QueryError Select :=
  match (Expression.columnsAll columns).find? fun c => !c.belongsTo source.tables with
  | some c => .error (.notInSource c.table.name c.name)
  | none => .ok { Select.all source with columns := columns }

end SqlCatalog
