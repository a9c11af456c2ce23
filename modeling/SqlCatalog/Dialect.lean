import SqlCatalog.Text.Casing
import SqlCatalog.Value

/-!
# Dialects

The servers a schema can be written for. A dialect decides how much of a name the server keeps,
hence which names are the same object, and how its drivers spell the place of a query argument.

## Main definitions

* `Dialect`, with `Dialect.named?` to read the name of one.
* `Dialect.identifierKey` is the part of a name that identifies an object.
* `Placeholder` is the spelling of the place of an argument.
* `quoteName` spells a name so that it is read back as it is.
-/

namespace SqlCatalog

/-- How the place of a query argument is spelled. -/
inductive Placeholder where
  /-- The same text for every argument. -/
  | fixed (text : String)
  /-- A text and the number of the argument, counted from one. -/
  | numbered (lead : String)
deriving DecidableEq

/-- The spelling of the `n`-th argument. -/
def Placeholder.spell : Placeholder → Nat → String
  | fixed text, _ => text
  | numbered lead, n => lead ++ toString n

/-- A server and its kind of SQL. -/
inductive Dialect where
  | postgres
  | oracle
  | sqlite
deriving DecidableEq

namespace Dialect

/-- The dialects in the order in which they are listed. -/
def all : List Dialect := [postgres, oracle, sqlite]

/-- The dialect of a schema that does not name one. -/
def standard : Dialect := postgres

/-- The name of a dialect. -/
def name : Dialect → String
  | postgres => "postgres"
  | oracle => "oracle"
  | sqlite => "sqlite"

/-- The names under which a dialect is known. -/
def aliases : Dialect → List String
  | postgres => ["postgres", "postgresql", "pg"]
  | oracle => ["oracle"]
  | sqlite => ["sqlite", "sqlite3"]

/-- The dialect with the given name, in any letter case. -/
def named? (s : String) : Option Dialect := all.find? fun d => d.aliases.contains (lower s)

/-- The number of characters of a name that the server keeps, if it is limited. -/
def maxIdentifierLength : Dialect → Option Nat
  | postgres => some 63
  | oracle => some 30
  | sqlite => none

/-- The part of a name that identifies an object: in lower case, cut where the server cuts it. -/
def identifierKey (d : Dialect) (name : String) : String :=
  match d.maxIdentifierLength with
  | some most => String.ofList ((lower name).toList.take most)
  | none => lower name

/-- Whether two names stand for the same object. -/
def sameName (d : Dialect) (a b : String) : Bool := d.identifierKey a == d.identifierKey b

/-- How the usual drivers of the dialect spell the place of an argument. -/
def placeholder : Dialect → Placeholder
  | postgres => .fixed "%s"
  | oracle => .numbered ":"
  | sqlite => .fixed "?"

/-- Every dialect takes a name for itself. -/
theorem sameName_refl (d : Dialect) (a : String) : d.sameName a a = true := by simp [sameName]

end Dialect

/-! ## Quoting -/

/-- Whether a name can stand without quotes: ASCII letters, digits, `_` and `$`, of which the
first is a letter or `_`. -/
def isPlainName (s : String) : Bool :=
  match s.toList with
  | [] => false
  | c :: cs => (c.isAlpha || c == '_') && cs.all fun c => c.isAlphanum || c == '_' || c == '$'

/-- A plain name as it is, any other between double quotes with the quotes inside it doubled. -/
def quoteName (s : String) : String := if isPlainName s then s else enclose '"' s

end SqlCatalog
