import GlimmerFormat.Number.Binary64

/-!
# The shortest decimal of a floating-point number

The decimals that round to a floating-point number form an interval around it.  The shortest
of them are the multiples of the largest power of ten that has a multiple in the interval;
`Binary64.shortest` is the one nearest to the number, the even one of two equally near.

All comparisons are exact.  The number `m * 2 ^ q` and the ends of its interval are multiples
of `2 ^ (q - 2)`, and a common factor turns them and the multiples of `10 ^ p` into natural
numbers.
-/

namespace GlimmerFormat

/-- The decimal `coefficient * 10 ^ exponent`. -/
structure Decimal where
  coefficient : Nat
  exponent : Int
deriving DecidableEq

namespace Binary64

/-- The factor that stands for `10 ^ p` when `2 ^ (q - 2)` is `binaryScale p q`. -/
def decimalScale (p q : Int) : Nat :=
  Nat.pow 10 p.toNat * Nat.pow 2 (2 - q).toNat

/-- The factor that stands for `2 ^ (q - 2)` when `10 ^ p` is `decimalScale p q`. -/
def binaryScale (p q : Int) : Nat :=
  Nat.pow 2 (q - 2).toNat * Nat.pow 10 (-p).toNat

/-- Whether a value, in units of the common scale of `10 ^ p` and the number, rounds to the
number.  The ends of the interval do so exactly when the significand is even. -/
def rounds (x : Binary64) (p : Int) (value : Nat) : Bool :=
  let unit := binaryScale p x.exponent
  let low := (4 * x.significand - if x.isBinade then 1 else 2) * unit
  let high := (4 * x.significand + 2) * unit
  if x.significand % 2 = 0 then low ≤ value && value ≤ high else low < value && value < high

/-- The multiple of `10 ^ p` nearest to the number among those that round to it. -/
def gridPoint? (x : Binary64) (p : Int) : Option Decimal :=
  let step := decimalScale p x.exponent
  let value := 4 * x.significand * binaryScale p x.exponent
  let c := value / step
  match x.rounds p (c * step), x.rounds p ((c + 1) * step) with
  | false, false => none
  | true, false => some ⟨c, p⟩
  | false, true => some ⟨c + 1, p⟩
  | true, true =>
    if 2 * value < (2 * c + 1) * step then some ⟨c, p⟩
    else if (2 * c + 1) * step < 2 * value then some ⟨c + 1, p⟩
    else some ⟨c + c % 2, p⟩

/-- The exponents of the decimals of finite numbers, from the largest to the smallest. -/
def gridExponents : List Int :=
  (List.range 633).map fun (i : Nat) => (308 : Int) - i

/-- The shortest decimal that rounds to the magnitude of a number other than zero. -/
def shortest (x : Binary64) : Decimal :=
  (gridExponents.findSome? x.gridPoint?).getD ⟨0, 0⟩

end Binary64

end GlimmerFormat
