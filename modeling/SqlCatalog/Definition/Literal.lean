import SqlCatalog.Definition.Reading

/-!
# Literals

Integers have 64 bits and lengths of types 32, both in decimal digits with an optional sign in
front. A string literal stands between single quotes, and two quotes inside it are one.

## Main definitions

* `readInt64?`, `readUInt32?` read numbers.
* `unquote?` undoes the quoting of a string.
* `literal?` is the value of a token, if it is a literal at all, and `readLiterals` reads a list.
-/

namespace SqlCatalog

/-! ## Numbers -/

/-- The number that one or more decimal digits stand for. -/
def decimal? (digits : List Char) : Option Nat :=
  if digits.isEmpty || !digits.all Char.isDigit then none
  else some (digits.foldl (fun n c => 10 * n + (c.toNat - '0'.toNat)) 0)

/-- The integer of 64 bits that digits with an optional sign stand for. -/
def readInt64? (text : String) : Option Int64 :=
  let fit (n : Int) : Option Int64 :=
    if Int64.minValue.toInt ≤ n && n ≤ Int64.maxValue.toInt then some (Int64.ofInt n) else none
  match text.toList with
  | '+' :: digits => (decimal? digits).bind fun n => fit n
  | '-' :: digits => (decimal? digits).bind fun n => fit (-n)
  | digits => (decimal? digits).bind fun n => fit n

/-- The number of 32 bits that digits with an optional plus sign stand for. -/
def readUInt32? (text : String) : Option UInt32 :=
  let fit (n : Nat) : Option UInt32 := if n < UInt32.size then some (UInt32.ofNat n) else none
  match text.toList with
  | '+' :: digits => (decimal? digits).bind fit
  | digits => (decimal? digits).bind fit

/-! ## Strings -/

/-- The characters with every two quotes in a row replaced by one. -/
def halving : List Char → List Char
  | '\'' :: '\'' :: cs => '\'' :: halving cs
  | c :: cs => c :: halving cs
  | [] => []

/-- The text of a string literal, if it stands between quotes. -/
def unquote? (raw : String) : Option String :=
  match raw.toList with
  | '\'' :: cs =>
    if cs.getLast? == some '\'' then some (String.ofList (halving cs.dropLast)) else none
  | _ => none

/-! ## Tokens -/

/-- Reads a string literal. -/
def readString (raw : String) : Compile String :=
  match unquote? raw with
  | some s => .ok s
  | none => .error (.invalidLiteral .string raw)

/-- The value of a token that is a literal, which may be malformed; `none` for other tokens. -/
def literal? : Token → Option (Compile Value)
  | .integer raw =>
    some (match readInt64? raw with
      | some n => .ok (.int n)
      | none => .error (.invalidLiteral .integer raw))
  | .string raw => some (Value.text <$> readString raw)
  | t =>
    if t.isKeyword "NULL" then some (.ok .null)
    else if t.isKeyword "TRUE" then some (.ok (.bool true))
    else if t.isKeyword "FALSE" then some (.ok (.bool false))
    else none

/-- Reads a literal; `expected` says what should stand in the place of another token. -/
def readLiteral (expected : String) (t : Token) : Compile Value :=
  match literal? t with
  | some value => value
  | none => violated expected (some t)

/-- Reads literals with commas between them that fill a parenthesis. -/
def readLiterals : List Token → Compile (List Value)
  | [] => violated "literal" none
  | t :: ts => do
    let value ← readLiteral "integer or string literal" t
    match ts with
    | [] => return [value]
    | comma :: rest =>
      if comma.isMark ',' then (value :: ·) <$> readLiterals rest
      else violated "',' or ')'" (some comma)

end SqlCatalog
