import SqlCatalog.Decimal.Shortest

/-!
# Values

The values of seed rows, of column defaults and of query arguments, and how a value is spelled
as a literal of SQL.

## Main definitions

* `Value` is a value; integers have 64 bits.
* `Value.literal` is its spelling.
* `Value.agrees` compares two values, numbers as numbers.
-/

namespace SqlCatalog

/-- A value of a column or of a query argument. -/
inductive Value where
  | null
  | bool (b : Bool)
  | int (n : Int64)
  | float (x : Binary64)
  | text (s : String)
deriving DecidableEq

/-- The characters with every `mark` written twice. -/
def doubling (mark : Char) (cs : List Char) : List Char :=
  cs.flatMap fun c => if c == mark then [mark, mark] else [c]

/-- A text between two marks, with the marks inside it written twice. -/
def enclose (mark : Char) (s : String) : String :=
  String.ofList (mark :: doubling mark s.toList ++ [mark])

namespace Value

/-- Whether the value is null. -/
def isNull : Value → Bool
  | null => true
  | _ => false

/-- The spelling of a value as a literal. -/
def literal : Value → String
  | null => "NULL"
  | bool b => if b then "true" else "false"
  | int n => toString n.toInt
  | float x => x.text
  | text s => enclose '\'' s

/-- Whether two values are equal, floating-point numbers being compared as numbers. -/
def agrees : Value → Value → Bool
  | float x, float y => x.agrees y
  | v, w => v == w

end Value

end SqlCatalog
