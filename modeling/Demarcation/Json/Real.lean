/-
Double-precision numbers in JSON texts. A number with a point, an exponent or too many digits is
read as a significand of at most sixty-four bits, scaled by one multiplication or division with a
power of ten; what does not fit the significand is dropped.
-/
import Demarcation.Decimal.Binary
import Demarcation.Json.Reader

namespace Demarcation.Json

open Demarcation.Text

/-- A significand and the power of ten it is scaled by. -/
structure Scaled where
  significand : Nat
  exponent : Int

/-- The digits before the point: from the first that does not fit on, each only scales. -/
def Scaled.whole (s : Scaled) : List Char → Scaled
  | [] => s
  | c :: ds =>
    let n := s.significand * 10 + (digit? c).getD 0
    if n < wordBound then Scaled.whole ⟨n, s.exponent⟩ ds
    else ⟨s.significand, s.exponent + (ds.length + 1)⟩

/-- The digits after the point: from the first that does not fit on, none counts. -/
def Scaled.fraction (s : Scaled) : List Char → Scaled
  | [] => s
  | c :: ds =>
    let n := s.significand * 10 + (digit? c).getD 0
    if n < wordBound then Scaled.fraction ⟨n, s.exponent - 1⟩ ds else s

/-- Exponents are thirty-two-bit numbers. -/
def exponentBound : Int := 2147483648

/-- Keeps an exponent in its bounds. -/
def clampExponent (e : Int) : Int := max (-exponentBound) (min (exponentBound - 1) e)

/-- A power of ten from the first to the three hundred and eighth. -/
def powerOfTen (n : Nat) : Float := Float.ofScientific 1 false n

/-- The scaled significand. Exponents below the table of powers divide by its largest power
first; exponents above it, and infinite results, are no numbers. -/
def scale? : (fuel : Nat) → Float → Int → Option Float
  | 0, f, _ => some f
  | fuel + 1, f, e =>
    if e.natAbs ≤ 308 then
      if 0 ≤ e then
        let r := f * powerOfTen e.natAbs
        if r.isInf then none else some r
      else some (f / powerOfTen e.natAbs)
    else if f == 0.0 then some f
    else if 0 ≤ e then none
    else scale? fuel (f / powerOfTen 308) (e + 308)

/-- The magnitude of a number. -/
def Number.magnitude? (n : Number) : Option Float :=
  let whole := Scaled.whole ⟨0, 0⟩ n.whole
  match n.fraction, n.exponent with
  | none, none => scale? 4 whole.significand.toUInt64.toFloat whole.exponent
  | _, _ =>
    let s := whole.fraction (n.fraction.getD [])
    match n.exponent with
    | none => scale? 4 s.significand.toUInt64.toFloat s.exponent
    | some (negative, ds) =>
      let e : Int := (digits? ds).getD 0
      if e < exponentBound then
        scale? 4 s.significand.toUInt64.toFloat (clampExponent (s.exponent + if negative then -e else e))
      else if negative || s.significand == 0 then some 0.0
      else none

/-- A double-precision number, also one written as a whole number. -/
def real? : Json → Option Float
  | .number n => n.magnitude?.map fun f => if n.negative then -f else f
  | _ => none

/-- The number of a decimal: a point or an exponent always shows. -/
def Number.ofDecimal (negative : Bool) (d : Decimal) : Number :=
  let ds := d.digits
  let point : Int := ds.length + d.exponent
  if 0 ≤ d.exponent ∧ point ≤ 16 then
    ⟨negative, ds ++ List.replicate d.exponent.toNat '0', some ['0'], none⟩
  else if 0 < point ∧ point ≤ 16 then
    ⟨negative, ds.take point.toNat, some (ds.drop point.toNat), none⟩
  else if -5 < point ∧ point ≤ 0 then
    ⟨negative, ['0'], some (List.replicate (-point).toNat '0' ++ ds), none⟩
  else
    let fraction := ds.drop 1
    ⟨negative, ds.take 1, if fraction.isEmpty then none else some fraction,
      some (point < 1, Nat.toDigits 10 (point - 1).natAbs)⟩

/-- A double-precision number; null where it is not finite. -/
def ofFloat (x : Float) : Json :=
  match Decimal.Binary.ofFloat x with
  | .notANumber => .null
  | .infinite _ => .null
  | .zero negative => .number ⟨negative, ['0'], some ['0'], none⟩
  | .finite negative i => .number (.ofDecimal negative i.shortest)

end Demarcation.Json
