/-
The texts of double-precision numbers.
-/
import Demarcation.Decimal.Shortest

namespace Demarcation.Decimal

/-- The parts of a double-precision number. -/
inductive Binary
  | notANumber
  | infinite (negative : Bool)
  | zero (negative : Bool)
  | finite (negative : Bool) (interval : Interval)

/-- How many fractions there are: the fifty-second power of two. -/
def fractionBound : Nat := 4503599627370496

/-- How many exponents there are: the eleventh power of two. -/
def exponentBound : Nat := 2048

/-- Reads the sign, the eleven exponent bits and the fifty-two fraction bits. -/
def Binary.ofBits (bits : Nat) : Binary :=
  let negative := bits / fractionBound / exponentBound % 2 == 1
  let exponent : Nat := bits / fractionBound % exponentBound
  let fraction : Nat := bits % fractionBound
  if exponent = exponentBound - 1 then
    if fraction = 0 then .infinite negative else .notANumber
  else if exponent = 0 then
    if fraction = 0 then .zero negative else .finite negative (.of fraction (-1074) false)
  else
    .finite negative
      (.of (fractionBound + fraction) ((exponent : Int) - 1075) (fraction = 0 && 1 < exponent))

def Binary.ofFloat (x : Float) : Binary := .ofBits x.toBits.toNat

/-- The text of an infinite number. -/
def infinity (negative : Bool) : String := if negative then "-inf" else "inf"

/-- The minus sign of a negative number. -/
def sign (negative : Bool) : String := if negative then "-" else ""

/-- The shortest decimal that reads back, never with an exponent, and without a point for whole
numbers. -/
def Binary.plain : Binary → String
  | .notANumber => "NaN"
  | .infinite negative => infinity negative
  | .zero negative => sign negative ++ "0"
  | .finite negative i => sign negative ++ i.shortest.positional 0

/-- Numbers from `10^-4` up to `10^16` have a point and no exponent, all others an exponent. -/
def isPositional (d : Decimal) : Bool :=
  let decade : Int := d.digits.length + d.exponent
  decide (-3 ≤ decade) && decide (decade ≤ 16)

/-- The shortest decimal that reads back, always with a point or an exponent. -/
def Binary.marked : Binary → String
  | .notANumber => "NaN"
  | .infinite negative => infinity negative
  | .zero negative => sign negative ++ "0.0"
  | .finite negative i =>
    let d := i.shortest
    sign negative ++ if isPositional d then d.positional 1 else d.scientific

end Demarcation.Decimal
