import SqlCatalog.Query.Builder
import SqlCatalog.Query.Fragment

/-!
# Rendering queries

A query is written part by part, and every part spells its places with the speller that the part
before it leaves. A column is written by its name alone unless another table in scope has a column
of that name. Operands that are operations themselves stand between parentheses, an alternative
does inside a conjunction, and so does a join to the right of a join.

## Main definitions

* `Reference` is a column as it is written, and `ColumnRef.reference` decides whether the name of
  a column needs that of its table.
* `Expression.render`, `Comparison.render`, `Source.render`, `Select.render`.
-/

namespace SqlCatalog

/-! ## Columns -/

/-- The tables of one selection, or the table that a statement changes. -/
abbrev Scope := List Table

/-- A column as it is written: by its name, or by that of its table and its own. -/
inductive Reference where
  | bare (column : String)
  | qualified (table column : String)
deriving DecidableEq

/-- The spelling of a reference. -/
def Reference.text (quote : String → String) : Reference → String
  | bare column => quote column
  | qualified table column => quote table ++ "." ++ quote column

namespace ColumnRef

/-- Whether another table in scope has a column of the same name. -/
def isAmbiguous (scope : Scope) (c : ColumnRef) : Bool :=
  scope.any fun t => t.id != c.table.id && t.hasColumn c.name

/-- How a column is written in a scope. -/
def reference (scope : Scope) (c : ColumnRef) : Reference :=
  if c.isAmbiguous scope then .qualified c.table.name c.name else .bare c.name

/-- The text of a column in a scope. -/
def text (quote : String → String) (scope : Scope) (c : ColumnRef) : String :=
  (c.reference scope).text quote

end ColumnRef

/-! ## Words and parentheses -/

/-- Whether an operand needs parentheses. -/
def Expression.isOperation : Expression → Bool
  | .binary .. => true
  | _ => false

/-- Whether a condition is an alternative of two. -/
def Comparison.isAlternative : Comparison → Bool
  | .compound .or _ _ => true
  | _ => false

/-- Whether a source is a join. -/
def Source.isJoin : Source → Bool
  | .table _ => false
  | _ => true

/-- The spelling of an operator between its operands. -/
def Operator.between (o : Operator) : String := " " ++ o.text ++ " "

/-- The test of an operand for null. -/
def nullTest (negated : Bool) : String := if negated then " is not null" else " is null"

/-- The words before the second source of a join. -/
def JoinKind.between (k : JoinKind) : String := " " ++ k.text ++ "join "

/-- The words that begin a selection. -/
def selectWords (distinct : Bool) : String := if distinct then "select distinct " else "select "

/-- The direction of an order. -/
def directionWords : Option Direction → String
  | none => ""
  | some .ascending => " asc"
  | some .descending => " desc"

/-- The words that lock the selected rows. -/
def lockWords : Option RowLock → String
  | none => ""
  | some .wait => " for update"
  | some .noWait => " for update nowait"

namespace Fragment

/-- The fragments with commas between them, or a text if there are none. -/
def listOr (text : String) : List Fragment → Fragment
  | [] => ofText text
  | f :: fs => join ", " (f :: fs)

/-- The fragments with commas between them, after the words that introduce them, if there are
any. -/
def listAfter (words : String) : List Fragment → Fragment
  | [] => empty
  | f :: fs => (ofText words).append (join ", " (f :: fs))

end Fragment

/-! ## Rendering -/

mutual

/-- Writes an expression. -/
def Expression.render (quote : String → String) (scope : Scope) : Expression → Spelling Fragment
  | .column c => return .ofText (c.text quote scope)
  | .constant value => Argument.render (.value value)
  | .parameter p => Argument.render (.parameter p)
  | .tuple items => return (Fragment.join ", " (← Expression.renderAll quote scope items)).inParens
  | .call name arguments => do
    let items ← Expression.renderAll quote scope arguments
    return (Fragment.ofText name).append (Fragment.join ", " items).inParens
  | .verbatim text => return .ofText text
  | .subquery select => return (← select.render quote).inParens
  | .binary operator lhs rhs => do
    let left ← lhs.render quote scope
    let right ← rhs.render quote scope
    return ((left.inParensIf lhs.isOperation).pushText operator.between).append
      (right.inParensIf rhs.isOperation)

/-- Writes several expressions, one after the other. -/
def Expression.renderAll (quote : String → String) (scope : Scope) :
    List Expression → Spelling (List Fragment)
  | [] => return []
  | e :: es => do
    let first ← e.render quote scope
    let rest ← Expression.renderAll quote scope es
    return first :: rest

/-- Writes a condition. -/
def Comparison.render (quote : String → String) (scope : Scope) : Comparison → Spelling Fragment
  | .null operand negated => do
    let f ← operand.render quote scope
    return (f.inParensIf operand.isOperation).pushText (nullTest negated)
  | .columns operator lhs rhs =>
    return ((Fragment.ofText (lhs.text quote scope)).pushText operator.between).append
      (.ofText (rhs.text quote scope))
  | .operands operator lhs rhs => do
    let left ← lhs.render quote scope
    let right ← rhs.render quote scope
    return ((left.inParensIf lhs.isOperation).pushText operator.between).append
      (right.inParensIf rhs.isOperation)
  | .compound operator lhs rhs => do
    let left ← lhs.render quote scope
    let right ← rhs.render quote scope
    return ((left.inParensIf (operator == .and && lhs.isAlternative)).pushText
      operator.between).append (right.inParensIf (operator == .and && rhs.isAlternative))

/-- Writes a source. -/
def Source.render (quote : String → String) (scope : Scope) : Source → Spelling Fragment
  | .table t => return .ofText (quote t.name)
  | .join kind left right on => do
    let first ← left.render quote scope
    let second ← right.render quote scope
    let condition ← on.render quote scope
    return (((first.pushText kind.between).append (second.inParensIf right.isJoin)).pushText
      " on ").append condition
  | .crossJoin left right => do
    let first ← left.render quote scope
    let second ← right.render quote scope
    return (first.pushText " cross join ").append (second.inParensIf right.isJoin)

/-- Writes a selection, clause by clause. -/
def Select.render (quote : String → String) : Select → Spelling Fragment
  | ⟨columns, source, condition, groupBy, having, orderBy, direction, distinct, limit, lock⟩ => do
    let scope := source.tables
    let listed ← Expression.renderAll quote scope columns
    let tables ← source.render quote scope
    let condition ← Comparison.renderAfter quote scope " where " condition
    let groups ← Expression.renderAll quote scope groupBy
    let having ← Comparison.renderAfter quote scope " having " having
    let order ← Expression.renderAll quote scope orderBy
    let limit ← Expression.renderAfter quote scope " limit " limit
    return .concat [.ofText (selectWords distinct), .listOr "*" listed, .ofText " from ", tables,
      condition, .listAfter " group by " groups, having, .listAfter " order by " order,
      .ofText (if orderBy.isEmpty then "" else directionWords direction),
      .ofText (lockWords lock), limit]

/-- Writes a condition after the words that introduce it. -/
def Comparison.renderAfter (quote : String → String) (scope : Scope) (words : String) :
    Option Comparison → Spelling Fragment
  | none => return .empty
  | some c => return (Fragment.ofText words).append (← c.render quote scope)

/-- Writes an expression after the words that introduce it. -/
def Expression.renderAfter (quote : String → String) (scope : Scope) (words : String) :
    Option Expression → Spelling Fragment
  | none => return .empty
  | some e => return (Fragment.ofText words).append (← e.render quote scope)

end

end SqlCatalog
