import SqlCatalog.Query.Statement

/-!
# Layouts of statements

A layout is a statement as its reader goes through it, from left to right: words and marks, names
of tables, columns with the scopes in which they stand, and arguments. It has no numbers and no
spellings yet. The layout is defined by recursion on the syntax alone, so that what holds of the
text of a statement can be read off it without following a speller.

## Main definitions

* `Piece` and `Layout`, with `Layout.spell`, which writes a layout with a speller.
* `Expression.layout`, `Comparison.layout`, `Source.layout`, `Select.layout` and
  `QueryStatement.layout`.
-/

namespace SqlCatalog

/-! ## Pieces and layouts -/

/-- A piece of a statement, before names are quoted and places are numbered. -/
inductive Piece where
  | text (s : String)
  /-- The name of a table. -/
  | name (s : String)
  /-- A column and the scopes in which it stands, the innermost first. -/
  | column (c : ColumnRef) (scopes : List Scope)
  | argument (a : Argument)

/-- A statement as a list of pieces, from left to right. -/
abbrev Layout := List Piece

namespace Piece

/-- The number of places of a piece. -/
def places : Piece → Nat
  | argument a => a.places
  | _ => 0

/-- The fragment of a piece, its places being the next ones of a speller. -/
def spell (quote : String → String) (g : Speller) : Piece → Fragment
  | text s => .ofText s
  | name s => .ofText (quote s)
  | column c scopes => .ofText (c.text quote (scopes.headD []))
  | argument a => Fragment.empty.pushArgument g a

end Piece

namespace Layout

/-- The number of places of a layout. -/
def places : Layout → Nat
  | [] => 0
  | p :: ps => p.places + places ps

/-- The fragment of a layout, its places being the next ones of a speller. -/
def spell (quote : String → String) (g : Speller) : Layout → Fragment
  | [] => .empty
  | p :: ps => (p.spell quote g).append (spell quote (g.after p.places) ps)

/-- The fragments of several layouts, each with the places after those of the layouts before. -/
def spellAll (quote : String → String) (g : Speller) : List Layout → List Fragment
  | [] => []
  | l :: ls => spell quote g l :: spellAll quote (g.after (places l)) ls

/-- Layouts one after the other, with a text between each two. -/
def join (separator : String) : List Layout → Layout
  | [] => []
  | [l] => l
  | l :: ls => l ++ Piece.text separator :: join separator ls

/-- The layout between parentheses. -/
def inParens (l : Layout) : Layout := Piece.text "(" :: l ++ [Piece.text ")"]

/-- The layout between parentheses, if it needs them. -/
def inParensIf (needed : Bool) (l : Layout) : Layout := if needed then inParens l else l

/-- Layouts with commas between them, or a text if there are none. -/
def listOr (text : String) : List Layout → Layout
  | [] => [.text text]
  | l :: ls => join ", " (l :: ls)

/-- Layouts with commas between them after some words, if there are any layouts. -/
def listAfter (words : String) : List Layout → Layout
  | [] => []
  | l :: ls => .text words :: join ", " (l :: ls)

end Layout

/-! ## The layouts of syntax -/

mutual

/-- The layout of an expression. -/
def Expression.layout (scopes : List Scope) : Expression → Layout
  | .column c => [.column c scopes]
  | .constant value => [.argument (.value value)]
  | .parameter p => [.argument (.parameter p)]
  | .tuple items => (Layout.join ", " (Expression.layouts scopes items)).inParens
  | .call name arguments =>
    .text name :: (Layout.join ", " (Expression.layouts scopes arguments)).inParens
  | .verbatim text => [.text text]
  | .subquery select => (select.layout scopes).inParens
  | .binary operator lhs rhs =>
    (lhs.layout scopes).inParensIf lhs.isOperation ++ .text operator.between ::
      (rhs.layout scopes).inParensIf rhs.isOperation

/-- The layouts of several expressions. -/
def Expression.layouts (scopes : List Scope) : List Expression → List Layout
  | [] => []
  | e :: es => e.layout scopes :: Expression.layouts scopes es

/-- The layout of a condition. -/
def Comparison.layout (scopes : List Scope) : Comparison → Layout
  | .null operand negated =>
    (operand.layout scopes).inParensIf operand.isOperation ++ [.text (nullTest negated)]
  | .columns operator lhs rhs =>
    [.column lhs scopes, .text operator.between, .column rhs scopes]
  | .operands operator lhs rhs =>
    (lhs.layout scopes).inParensIf lhs.isOperation ++ .text operator.between ::
      (rhs.layout scopes).inParensIf rhs.isOperation
  | .compound operator lhs rhs =>
    (lhs.layout scopes).inParensIf (operator == .and && lhs.isAlternative) ++
      .text operator.between ::
      (rhs.layout scopes).inParensIf (operator == .and && rhs.isAlternative)

/-- The layout of a source. -/
def Source.layout (scopes : List Scope) : Source → Layout
  | .table t => [.name t.name]
  | .join kind left right on =>
    left.layout scopes ++ .text kind.between ::
      (right.layout scopes).inParensIf right.isJoin ++ .text " on " :: on.layout scopes
  | .crossJoin left right =>
    left.layout scopes ++ .text " cross join " ::
      (right.layout scopes).inParensIf right.isJoin

/-- The layout of a selection that stands in the scopes `outer`. The tables of its source are the
innermost scope of everything in it. -/
def Select.layout (outer : List Scope) : Select → Layout
  | ⟨columns, source, condition, groupBy, having, orderBy, direction, distinct, limit, lock⟩ =>
    let scopes := source.tables :: outer
    .text (selectWords distinct) :: Layout.listOr "*" (Expression.layouts scopes columns)
      ++ .text " from " :: source.layout scopes
      ++ Comparison.layoutAfter scopes " where " condition
      ++ Layout.listAfter " group by " (Expression.layouts scopes groupBy)
      ++ Comparison.layoutAfter scopes " having " having
      ++ Layout.listAfter " order by " (Expression.layouts scopes orderBy)
      ++ [.text (if orderBy.isEmpty then "" else directionWords direction), .text (lockWords lock)]
      ++ Expression.layoutAfter scopes " limit " limit

/-- The layout of a condition after the words that introduce it. -/
def Comparison.layoutAfter (scopes : List Scope) (words : String) : Option Comparison → Layout
  | none => []
  | some c => .text words :: c.layout scopes

/-- The layout of an expression after the words that introduce it. -/
def Expression.layoutAfter (scopes : List Scope) (words : String) : Option Expression → Layout
  | none => []
  | some e => .text words :: e.layout scopes

end

/-! ## The layouts of statements -/

namespace Assignments

/-- The layout of the columns, between parentheses. -/
def columnsLayout (a : Assignments) : Layout :=
  (Layout.join ", " (a.values.map fun v => [.column v.1 [[a.table]]])).inParens

/-- The layout of the values, between parentheses. -/
def valuesLayout (a : Assignments) : Layout :=
  (Layout.join ", " (a.values.map fun v => v.2.layout [[a.table]])).inParens

/-- The layout of the columns with their values. -/
def changesLayout (a : Assignments) : Layout :=
  Layout.join ", " (a.values.map fun v =>
    .column v.1 [[a.table]] :: .text " = " :: v.2.layout [[a.table]])

end Assignments

/-- The layout of what a statement returns. -/
def returningLayout (scope : Scope) (returning : List Expression) : Layout :=
  Layout.listAfter " returning " (Expression.layouts [scope] returning)

/-- The layout of a statement. -/
def QueryStatement.layout : QueryStatement → Layout
  | select s => s.layout []
  | insert values returning =>
    [.text "insert into ", .name values.table.name, .text " "] ++ values.columnsLayout
      ++ .text " values " :: values.valuesLayout ++ returningLayout [values.table] returning
  | update values condition returning =>
    [.text "update ", .name values.table.name, .text " set "] ++ values.changesLayout
      ++ .text " where " :: condition.layout [[values.table]]
      ++ returningLayout [values.table] returning
  | delete table condition returning =>
    [.text "delete from ", .name table.name, .text " where "] ++ condition.layout [[table]]
      ++ returningLayout [table] returning
  | lock table mode =>
    [.text "lock table ", .name table.name, .text (" in " ++ mode.text ++ " mode")]

end SqlCatalog
