import SqlCatalog.Definition.Literal

/-!
# Reading check expressions

A check is one comparison of two operands that fills a parenthesis. An operand is a column of the
table, a literal, or a function of columns.

## Main definitions

* `readOperand` and `readCheck`.
-/

namespace SqlCatalog

/-- The places of columns of a table. -/
def Table.readColumns (t : Table) (inner : List Token) : Compile (List Nat) := do
  let names ← readNames inner
  fromCatalog (t.columnIndexes names)

/-- Reads an operand of a check over the columns of a table. -/
def readOperand (table : Table) (t : Token) : Compile CheckExpr :=
  match t with
  | .identifier _ | .name _ =>
    match t.name? with
    | some n => CheckExpr.column <$> fromCatalog (table.columnIndex n)
    | none => violated "column" (some t)
  | .call parts => do
    let (name, arguments) ← readCall "function call" t parts
    let columns ← table.readColumns arguments
    return .call name (columns.map .column)
  | _ => CheckExpr.constant <$> readLiteral "column, literal or function" t

/-- Reads the operand that comes first. -/
def readNextOperand (table : Table) : List Token → Compile (CheckExpr × List Token)
  | [] => violated "expression" none
  | t :: ts => (·, ts) <$> readOperand table t

/-- Reads a check that fills a parenthesis. -/
def readCheck (table : Table) (inner : List Token) : Compile CheckExpr := do
  let (lhs, rest) ← readNextOperand table inner
  match rest with
  | .comparison operator :: rest =>
    let (rhs, rest) ← readNextOperand table rest
    match rest with
    | [] => return .compare operator lhs rhs
    | t :: _ => violated "end of expression" (some t)
  | ts => violated "comparison operator" ts.head?

end SqlCatalog
