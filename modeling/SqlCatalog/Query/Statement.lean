import SqlCatalog.Notice
import SqlCatalog.Query.Assignments
import SqlCatalog.Query.Rendering

/-!
# Statements of queries

A statement selects, inserts, updates or deletes rows, or locks a table. Rendering it cannot fail:
what could be wrong was checked when it was built.

## Main definitions

* `QueryStatement` is a statement, `QueryStatement.kind` the word for its kind.
* `Style` is how names and places are spelled.
* `QueryStatement.renderAnew` renders a statement, `QueryStatement.fragment` gives what is rendered
  in a style.
-/

namespace SqlCatalog

/-- How strong the lock of a table is. -/
inductive LockMode where
  | accessShare
  | rowShare
  | rowExclusive
  | share
  | exclusive
  | accessExclusive
deriving DecidableEq

namespace LockMode

/-- The words for a lock. -/
def text : LockMode → String
  | accessShare => "access share"
  | rowShare => "row share"
  | rowExclusive => "row exclusive"
  | share => "share"
  | exclusive => "exclusive"
  | accessExclusive => "access exclusive"

/-- All locks. -/
def all : List LockMode := [accessShare, rowShare, rowExclusive, share, exclusive, accessExclusive]

/-- The lock with the given words. -/
def ofText? (s : String) : Option LockMode := all.find? fun m => m.text == s

end LockMode

/-- A statement. What it returns are expressions over the rows it changes. -/
inductive QueryStatement where
  | select (s : Select)
  | insert (values : Assignments) (returning : List Expression)
  | update (values : Assignments) (condition : Comparison) (returning : List Expression)
  | delete (table : Table) (condition : Comparison) (returning : List Expression)
  | lock (table : Table) (mode : LockMode)

/-- How a query is spelled: the places of its arguments, and the names. -/
structure Style where
  placeholder : Placeholder
  quote : String → String

/-- The usual style of a dialect. -/
def Style.ofDialect (d : Dialect) : Style := ⟨d.placeholder, quoteName⟩

/-! ## Rendering -/

/-- Writes what a statement returns. -/
def renderReturning (quote : String → String) (scope : Scope) (returning : List Expression) :
    Spelling Fragment :=
  return .listAfter " returning " (← Expression.renderAll quote scope returning)

namespace Assignments

/-- Writes the columns between parentheses. -/
def renderColumns (quote : String → String) (a : Assignments) : Fragment :=
  (Fragment.join ", " (a.values.map fun v => .ofText (v.1.text quote [a.table]))).inParens

/-- Writes the values between parentheses. -/
def renderValues (quote : String → String) (a : Assignments) : Spelling Fragment := do
  let values ← a.values.mapM fun v => v.2.render quote [a.table]
  return (Fragment.join ", " values).inParens

/-- Writes each column with its value. -/
def renderChanges (quote : String → String) (a : Assignments) : Spelling Fragment := do
  let changes ← a.values.mapM fun v => do
    let value ← v.2.render quote [a.table]
    return ((Fragment.ofText (v.1.text quote [a.table])).pushText " = ").append value
  return Fragment.join ", " changes

end Assignments

namespace QueryStatement

/-- The word for the kind of a statement. -/
def kind : QueryStatement → String
  | select _ => "select"
  | insert .. => "insert"
  | update .. => "update"
  | delete .. => "delete"
  | lock .. => "lock"

/-- Writes a statement, clause by clause. -/
def render (quote : String → String) : QueryStatement → Spelling Fragment
  | select s => s.render quote
  | insert values returning => do
    let row ← values.renderValues quote
    let returned ← renderReturning quote [values.table] returning
    return .concat [.ofText ("insert into " ++ quote values.table.name ++ " "),
      values.renderColumns quote, .ofText " values ", row, returned]
  | update values condition returning => do
    let changes ← values.renderChanges quote
    let rows ← condition.render quote [values.table]
    let returned ← renderReturning quote [values.table] returning
    return .concat [.ofText ("update " ++ quote values.table.name ++ " set "), changes,
      .ofText " where ", rows, returned]
  | delete table condition returning => do
    let rows ← condition.render quote [table]
    let returned ← renderReturning quote [table] returning
    return .concat [.ofText ("delete from " ++ quote table.name ++ " where "), rows, returned]
  | lock table mode =>
    return .ofText ("lock table " ++ quote table.name ++ " in " ++ mode.text ++ " mode")

/-- Writes a statement with its places numbered from one, whatever was written before. -/
def renderAnew (quote : String → String) (s : QueryStatement) : Spelling Fragment := do
  modify fun g => .fresh g.placeholder
  s.render quote

/-- The statement in a style. -/
def fragment (style : Style) (s : QueryStatement) : Fragment :=
  (s.renderAnew style.quote (.fresh style.placeholder)).1

/-- The notice that a statement was rendered. -/
def renderNotice (style : Style) (s : QueryStatement) : Notice :=
  .rendered s.kind (s.fragment style).text

end QueryStatement

end SqlCatalog
