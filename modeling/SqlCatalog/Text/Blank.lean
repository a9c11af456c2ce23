import SqlCatalog.Text.CodeRanges

/-!
# White space

The characters with the Unicode property `White_Space`, and the removal of white space at the
ends of a text.

## Main definitions

* `isBlank` is the property.
* `trimEnd` removes white space after the text, `trim` on both sides.
-/

namespace SqlCatalog

/-- The characters that count as white space. -/
def blankRanges : CodeRanges :=
  [(0x9, 0xD), (0x20, 0x20), (0x85, 0x85), (0xA0, 0xA0), (0x1680, 0x1680), (0x2000, 0x200A),
    (0x2028, 0x2029), (0x202F, 0x202F), (0x205F, 0x205F), (0x3000, 0x3000)]

/-- Whether `c` is white space. -/
def isBlank (c : Char) : Bool := blankRanges.has c

/-- The characters without the white space at their end. -/
def trimEndChars (cs : List Char) : List Char := (cs.reverse.dropWhile isBlank).reverse

/-- The text without the white space at its end. -/
def trimEnd (s : String) : String := String.ofList (trimEndChars s.toList)

/-- The text without the white space at either end. -/
def trim (s : String) : String := String.ofList (trimEndChars (s.toList.dropWhile isBlank))

end SqlCatalog
