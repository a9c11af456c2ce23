import SqlCatalog.Query.Statement

/-!
# Running statements

A statement is run by rendering it in the style of a server, replacing its parameters by the
values bound to them, and handing text and values to whatever talks to the server. What talks to
the server has a state, which a call may change.

## Main definitions

* `Call` is what is handed over.
* `Executor` is what talks to a server of some dialect.
* `QueryStatement.call` prepares a call, `QueryStatement.run` makes it.
-/

namespace SqlCatalog

/-- A row of an answer. -/
abbrev Row := List Value

/-- A statement ready to be run, and whether it fails when no row is affected. -/
structure Call where
  sql : String
  arguments : List Value
  failOnNoRows : Bool
deriving DecidableEq

/-- What talks to a server: its dialect, how it wants places spelled, and its answers to calls. -/
structure Executor (σ : Type) where
  dialect : Dialect
  placeholder : Placeholder
  execute : Call → StateM σ (Except String (List Row))

namespace QueryStatement

variable {σ : Type}

/-- The style in which an executor wants statements. -/
def styleFor (x : Executor σ) : Style := ⟨x.placeholder, quoteName⟩

/-- The statement as a call, its parameters replaced by the values bound to them. -/
def call (x : Executor σ) (bs : Bindings) (failOnNoRows : Bool) (s : QueryStatement) :
    Except QueryError Call := do
  let bound ← (s.fragment (styleFor x)).bind bs
  let values ← bound.values
  return ⟨bound.text, values, failOnNoRows⟩

/-- Runs a statement. -/
def run (x : Executor σ) (bs : Bindings) (failOnNoRows : Bool) (s : QueryStatement) :
    StateM σ (Except QueryError (List Row)) :=
  match s.call x bs failOnNoRows with
  | .error e => return .error e
  | .ok c => return (← x.execute c).mapError .execution

/-- The notices that running a statement leaves. -/
def runNotices (x : Executor σ) (bs : Bindings) (s : QueryStatement) : List Notice :=
  s.renderNotice (styleFor x) ::
    match s.call x bs false with
    | .ok c => [.executing s.kind c.arguments.length]
    | .error _ => []

end QueryStatement

end SqlCatalog
