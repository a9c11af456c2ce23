import SqlCatalog.TypeName

/-!
# Notices

Reading definitions and running statements leave notices of what was done. A notice has a
severity, and a reader of notices sees those that are severe enough.

## Main definitions

* `Notice`, with `Notice.severity` and `Notice.message`.
* `Notice.visible` keeps the notices of a severity or above.
-/

namespace SqlCatalog

/-- How severe a notice is. -/
inductive Severity where
  | trace
  | debug
  | warn
deriving DecidableEq

namespace Severity

/-- The place of a severity in the order of severities. -/
def rank : Severity → Nat
  | trace => 0
  | debug => 1
  | warn => 2

/-- The word for a severity. -/
def word : Severity → String
  | trace => "TRACE"
  | debug => "DEBUG"
  | warn => "WARN"

end Severity

/-- What was done, or what looks wrong. -/
inductive Notice where
  /-- A list of the given length was opened. -/
  | openedList (length : Nat)
  | compiledTable (name : String)
  | compiledIndex (name : String)
  | compiledSequence (name : String)
  | compiledRow (table : String)
  /-- A column refers to a table whose primary key has a type of another family. -/
  | keyMismatch (table column : String) (type : ColumnType) (target : String) (keyType : ColumnType)
  /-- A file is about to be compiled. -/
  | compilingFile (path : String) (dialect : Dialect)
  | rendered (kind text : String)
  | executing (kind : String) (arguments : Nat)
deriving DecidableEq

namespace Notice

/-- How severe a notice is. -/
def severity : Notice → Severity
  | openedList _ => .trace
  | keyMismatch .. => .warn
  | _ => .debug

/-- The wording of a notice. -/
def message : Notice → String
  | openedList n => s!"flattening identifier list of {n} tokens"
  | compiledTable name => s!"compiled table {name}"
  | compiledIndex name => s!"compiled index {name}"
  | compiledSequence name => s!"compiled sequence {name}"
  | compiledRow table => s!"compiled seed row for {table}"
  | keyMismatch table column type target keyType =>
    s!"{table}.{column} ({type.text}) references {target} whose primary key is {keyType.text}"
  | compilingFile path dialect => s!"compiling {path} as {dialect.name}"
  | rendered kind text => s!"rendered {kind}: {text}"
  | executing kind n => s!"executing {kind} with {n} parameters"

/-- The notices at least as severe as `least`. -/
def visible (least : Severity) (notices : List Notice) : List Notice :=
  notices.filter fun n => least.rank ≤ n.severity.rank

end Notice

end SqlCatalog
