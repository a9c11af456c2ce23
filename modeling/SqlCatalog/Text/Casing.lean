import SqlCatalog.Text.CaseTables

/-!
# Upper and lower case

The full case mappings of the Unicode standard, independent of any language. Lower case depends
on the neighbours of a character in one place only: a capital sigma that ends a word becomes the
final form of the small letter. Names and reserved words are compared through these mappings.

## Main definitions

* `lower`, `upper` map a text.
* `sameIgnoringCase` compares two texts through `lower`.
* `sameIgnoringAsciiCase` compares two texts in which only ASCII letters may differ in case.
-/

namespace SqlCatalog

/-! ## Lower case -/

/-- The small form of a character; of a capital sigma, the form that is used inside words. -/
def lowerChar (c : Char) : List Char :=
  if isAscii c then [c.toLower]
  else if c == 'İ' then ['i', '\u0307']
  else [(lowerRuns.findSome? (·.image? c)).getD c]

/-- Whether the first character that is not passed over has letter case. -/
def meetsCased (cs : List Char) : Bool :=
  match cs.dropWhile caseIgnorableRanges.has with
  | [] => false
  | c :: _ => casedRanges.has c

/-- A sigma is final when a cased letter stands before it and none after it. -/
def isFinalSigma (before after : List Char) : Bool := meetsCased before && !meetsCased after

/-- The small forms of the characters `cs`, where `before` holds those already read, last first. -/
def lowerCharsFrom (before : List Char) : List Char → List Char
  | [] => []
  | c :: cs =>
    (if c == 'Σ' && isFinalSigma before cs then ['ς'] else lowerChar c)
      ++ lowerCharsFrom (c :: before) cs

/-- The text in lower case. -/
def lower (s : String) : String := String.ofList (lowerCharsFrom [] s.toList)

/-- Whether two texts are equal up to letter case. -/
def sameIgnoringCase (a b : String) : Bool := lower a == lower b

/-! ## Upper case -/

/-- The capital form of a character, which may be several characters. -/
def upperChar (c : Char) : List Char :=
  if isAscii c then [c.toUpper]
  else match upperExpansions.lookup c.toNat with
    | some points => points.map Char.ofNat
    | none => [(upperRuns.findSome? (·.image? c)).getD c]

/-- The text in upper case. -/
def upper (s : String) : String := String.ofList (s.toList.flatMap upperChar)

/-! ## ASCII -/

/-- Whether two texts are equal up to the case of ASCII letters. -/
def sameIgnoringAsciiCase (a b : String) : Bool :=
  a.toList.map Char.toLower == b.toList.map Char.toLower

end SqlCatalog
