/-!
# Floating-point numbers of 64 bits

A binary floating-point number is kept as its 64-bit word, and everything said about it is
arithmetic on natural numbers. A finite number is a sign, an integer `significand` and a power of
two; infinities and the numbers that are not numbers fill the highest exponent.

## Main definitions

* `Binary64` is the word.
* `significand`, `exponent` are the two parts of the magnitude `significand * 2 ^ exponent`.
* `agrees` is the comparison of numbers, which differs from equality of words at zero and at NaN.
-/

namespace SqlCatalog

/-- A binary floating-point number, given by its 64-bit word. -/
structure Binary64 where
  word : UInt64
deriving DecidableEq

namespace Binary64

/-- Whether the sign bit is set. -/
def isNegative (x : Binary64) : Bool := 0x8000000000000000 ≤ x.word.toNat

/-- The 52 bits of the fraction. -/
def fraction (x : Binary64) : Nat := x.word.toNat % 0x10000000000000

/-- The 11 bits of the biased exponent. -/
def biased (x : Binary64) : Nat := x.word.toNat / 0x10000000000000 % 0x800

/-- Whether the number is an infinity. -/
def isInfinite (x : Binary64) : Bool := x.biased == 2047 && x.fraction == 0

/-- Whether the word stands for no number. -/
def isNaN (x : Binary64) : Bool := x.biased == 2047 && x.fraction != 0

/-- Whether the number is zero, of either sign. -/
def isZero (x : Binary64) : Bool := x.biased == 0 && x.fraction == 0

/-- The integer that is scaled by a power of two. -/
def significand (x : Binary64) : Nat :=
  if x.biased == 0 then x.fraction else 0x10000000000000 + x.fraction

/-- The power of two by which the significand is scaled. -/
def exponent (x : Binary64) : Int := if x.biased == 0 then -1074 else (x.biased : Int) - 1075

/-- Whether the next number below is at half the distance of the next number above. -/
def isBinadeStart (x : Binary64) : Bool := x.fraction == 0 && 1 < x.biased

/-- Whether two words stand for the same number; NaN is no number and both zeros are one. -/
def agrees (x y : Binary64) : Bool :=
  !x.isNaN && !y.isNaN && (x.word == y.word || (x.isZero && y.isZero))

end Binary64

end SqlCatalog
