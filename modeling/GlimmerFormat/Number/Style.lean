import GlimmerFormat.Number.Shortest

/-!
# Number texts

A floating-point number is written with the digits of its shortest decimal, either with all
places or as a coefficient and a power of ten.  Where the one form ends and the other begins
is a matter of style; `plainStyle` is the style of this library.
-/

namespace GlimmerFormat

/-- Decisions on the text of a floating-point number. -/
structure NumberStyle where
  /-- The least decimal exponent that is written with all places. -/
  leastPositional : Int
  /-- The greatest decimal exponent that is written with all places. -/
  greatestPositional : Int
  /-- The least number of digits of a written exponent. -/
  exponentDigits : Nat

namespace NumberStyle

/-- A number of zeros. -/
def zeros (n : Nat) : String :=
  String.ofList (List.replicate n '0')

/-- Digits with all places written out; a whole number has one place after the point. -/
def positional (digits : String) (exponent : Int) : String :=
  let cs := digits.toList
  if exponent < 0 then "0." ++ zeros (-exponent - 1).toNat ++ digits
  else if cs.length ≤ exponent.toNat + 1 then
    digits ++ zeros (exponent.toNat + 1 - cs.length) ++ ".0"
  else
    String.ofList (cs.take (exponent.toNat + 1)) ++ "." ++
      String.ofList (cs.drop (exponent.toNat + 1))

/-- One digit, the others after a point, and the power of ten with its sign. -/
def scientific (style : NumberStyle) (digits : String) (exponent : Int) : String :=
  let size := toString exponent.natAbs
  let coefficient := match digits.toList with
    | [] => ""
    | [c] => String.singleton c
    | c :: cs => String.singleton c ++ "." ++ String.ofList cs
  coefficient ++ "e" ++ (if exponent < 0 then "-" else "+") ++
    zeros (style.exponentDigits - size.length) ++ size

/-- The text of a decimal other than zero whose coefficient does not end in zero. -/
def decimal (style : NumberStyle) (d : Decimal) : String :=
  let digits := toString d.coefficient
  let exponent := d.exponent + digits.length - 1
  if style.leastPositional ≤ exponent ∧ exponent ≤ style.greatestPositional then
    positional digits exponent
  else style.scientific digits exponent

/-- The text of a floating-point number. -/
def write (style : NumberStyle) (x : Binary64) : String :=
  if x.isNaN then "nan"
  else
    (if x.isNegative then "-" else "") ++
      if !x.isFinite then "inf"
      else if x.isZero then "0.0"
      else style.decimal x.shortest

end NumberStyle

/-- Exponents from -4 to 15 are written with all places; others have at least two digits. -/
def plainStyle : NumberStyle where
  leastPositional := -4
  greatestPositional := 15
  exponentDigits := 2

end GlimmerFormat
