/-!
# Sets of characters given by code point ranges

A character class of the Unicode standard is a finite union of ranges of code points. The
classes this library needs are written down as lists of inclusive ranges, one module per
property, and all of them are tested by the one function of this module.

## Main definitions

* `CodeRanges` is a list of inclusive ranges.
* `CodeRanges.has` says whether a character lies in one of them.
-/

namespace SqlCatalog

/-- A finite union of inclusive ranges of code points, each given by its first and last point. -/
abbrev CodeRanges := List (Nat × Nat)

/-- Whether `c` lies in one of the ranges. -/
def CodeRanges.has (ranges : CodeRanges) (c : Char) : Bool :=
  ranges.any fun range => range.1 ≤ c.toNat && c.toNat ≤ range.2

/-- Whether `c` is one of the 128 characters of ASCII. -/
def isAscii (c : Char) : Bool := c.toNat < 128

/-- A character is in a set of ranges exactly when its code lies within one of them. -/
theorem CodeRanges.has_iff {ranges : CodeRanges} {c : Char} :
    ranges.has c = true ↔ ∃ range ∈ ranges, range.1 ≤ c.toNat ∧ c.toNat ≤ range.2 := by
  simp [CodeRanges.has]

end SqlCatalog
