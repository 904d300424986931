/-!
# Binary floating-point numbers

A floating-point number is its 64 bits: a sign, an exponent and a fraction.  A finite number
is a signed multiple of a power of two, so everything about its value is arithmetic on
natural numbers.
-/

namespace GlimmerFormat

/-- A number in the 64-bit binary interchange format. -/
structure Binary64 where
  bits : UInt64
deriving DecidableEq

namespace Binary64

/-- Whether the sign bit is set. -/
def isNegative (x : Binary64) : Bool :=
  x.bits.toNat / Nat.pow 2 63 == 1

/-- The exponent field, from 0 to 2047. -/
def exponentField (x : Binary64) : Nat :=
  x.bits.toNat / Nat.pow 2 52 % 2048

/-- The fraction field, below `2 ^ 52`. -/
def fractionField (x : Binary64) : Nat :=
  x.bits.toNat % Nat.pow 2 52

/-- Whether the bits stand for a number. -/
def isFinite (x : Binary64) : Bool :=
  x.exponentField != 2047

/-- Whether the bits stand for no number and no infinity. -/
def isNaN (x : Binary64) : Bool :=
  !x.isFinite && x.fractionField != 0

/-- The number `m` in the magnitude `m * 2 ^ q` of a finite number. -/
def significand (x : Binary64) : Nat :=
  if x.exponentField = 0 then x.fractionField else Nat.pow 2 52 + x.fractionField

/-- The exponent `q` in the magnitude `m * 2 ^ q` of a finite number. -/
def exponent (x : Binary64) : Int :=
  (max x.exponentField 1 : Nat) - 1075

/-- Whether the number is zero, of either sign. -/
def isZero (x : Binary64) : Bool :=
  x.isFinite && x.significand == 0

/-- Whether the next smaller magnitude is only half as far away as the next larger one. -/
def isBinade (x : Binary64) : Bool :=
  x.fractionField == 0 && 1 < x.exponentField

/-- The magnitude of a finite number, if it is a whole number. -/
def wholeMagnitude? (x : Binary64) : Option Nat :=
  if !x.isFinite then none
  else if 0 ≤ x.exponent then some (x.significand * Nat.pow 2 x.exponent.toNat)
  else if x.significand % Nat.pow 2 (-x.exponent).toNat = 0 then
    some (x.significand / Nat.pow 2 (-x.exponent).toNat)
  else none

end Binary64

end GlimmerFormat
