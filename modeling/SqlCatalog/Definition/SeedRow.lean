import SqlCatalog.Definition.Literal
import SqlCatalog.Notice
import SqlCatalog.Token.Flatten

/-!
# Reading seed rows

A seed row is `INSERT INTO`, a table, `VALUES` and a parenthesis of literals, which are the values
of the first columns of the table.

## Main definitions

* `SeedRowDefinition` is what the statement says.
* `compileSeedRow` adds the row.
-/

namespace SqlCatalog

/-- A table and the values of a row for it. -/
structure SeedRowDefinition where
  table : String
  values : List Value

/-- Reads a seed row. -/
def readSeedRow (ts : List Token) : Compile SeedRowDefinition := do
  let rest ← readKeyword "INSERT" ts
  let rest ← readKeyword "INTO" rest
  let (table, rest) ← readName "table name" rest
  let rest ← readKeyword "VALUES" rest
  let (inner, rest) ← readParen rest
  let values ← readLiterals inner
  readEnd rest
  return ⟨table, values⟩

/-- Compiles a seed row. -/
def compileSeedRow (statement : Statement) : Compiling Unit := do
  let s ← get
  let row ← readSeedRow (Token.flatten statement)
  let table ← fromCatalog (s.tableNamed row.table)
  let extended ← fromCatalog (table.addRow row.values)
  set (s.modifyTable table.id fun _ => extended)

/-- The notices that compiling a seed row leaves. -/
def Schema.seedRowNotices (s : Schema) (statement : Statement) : List Notice :=
  (Token.listLengths statement).map .openedList ++
    match readSeedRow (Token.flatten statement), (compileSeedRow statement).into s with
    | .ok row, (.ok _, _) => [.compiledRow row.table]
    | _, _ => []

end SqlCatalog
