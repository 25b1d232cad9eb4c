/-
The shortest decimal of a binary floating-point number: of all decimals that round to the number,
one with the fewest digits, and of those the nearest. Everything is exact arithmetic on natural
numbers: a finite number is `m · 2^q`, the reals that round to it form an interval around it, and
for each count of digits only the number's two neighbours on the grid of that many digits can lie
in the interval.
-/

namespace Demarcation

/-- The number `significand · 10^exponent`. -/
structure Decimal where
  significand : Nat
  exponent : Int
deriving DecidableEq, Repr

namespace Decimal

/-- A positive binary number with the reals that round to it: `value`, `low` and `high` are the
number and the ends of its interval, all three over the common denominator `unit`. -/
structure Interval where
  value : Nat
  low : Nat
  high : Nat
  unit : Nat
  closed : Bool

/-- The interval of `m · 2^q`. `narrow` says that the next smaller number is only half a step
away. The ends round to the number itself exactly when `m` is even. -/
def Interval.of (m : Nat) (q : Int) (narrow : Bool) : Interval :=
  let up := Nat.pow 2 (q - 2).toNat
  { value := 4 * m * up
    low := (4 * m - if narrow then 1 else 2) * up
    high := (4 * m + 2) * up
    unit := Nat.pow 2 (2 - q).toNat
    closed := m % 2 == 0 }

/-- How many decimal digits a number has. -/
def digitCount (n : Nat) : Nat := (Nat.toDigits 10 n).length

/-- The exponent `e` with `10^(e-1) ≤ value / unit < 10^e`. -/
def Interval.decade (i : Interval) : Int :=
  let e : Int := (digitCount i.value : Int) - digitCount i.unit
  if i.value * Nat.pow 10 (-e).toNat < i.unit * Nat.pow 10 e.toNat then e else e + 1

/-- The better of the number's two neighbours on the grid `10^x`, if one rounds to the number. A
tie goes to the larger neighbour. -/
def Interval.neighbour? (i : Interval) (x : Int) : Option Decimal :=
  let scale := Nat.pow 10 (-x).toNat
  let step := i.unit * Nat.pow 10 x.toNat
  let value := i.value * scale
  let inside (n : Nat) : Bool :=
    if i.closed then i.low * scale ≤ n && n ≤ i.high * scale
    else i.low * scale < n && n < i.high * scale
  let below := value / step
  let above := below + 1
  match inside (below * step), inside (above * step) with
  | true, true =>
    some ⟨if value - below * step < above * step - value then below else above, x⟩
  | true, false => some ⟨below, x⟩
  | false, true => some ⟨above, x⟩
  | false, false => none

/-- The first hit on the grids of `count`, `count + 1`, … digits, at most `more` of them after the
first. -/
def Interval.search (i : Interval) (decade : Int) : (more count : Nat) → Decimal
  | 0, count => (i.neighbour? (decade - count)).getD ⟨i.value, 0⟩
  | more + 1, count => (i.neighbour? (decade - count)).getD (i.search decade more (count + 1))

/-- Zeros at the end of the significand move into the exponent. -/
def stripZeros : (fuel : Nat) → Decimal → Decimal
  | 0, d => d
  | fuel + 1, d =>
    if d.significand % 10 = 0 ∧ d.significand ≠ 0 then
      stripZeros fuel ⟨d.significand / 10, d.exponent + 1⟩
    else d

/-- The shortest decimal of the interval's number: seventeen digits always suffice. -/
def Interval.shortest (i : Interval) : Decimal :=
  stripZeros 1 (i.search i.decade 16 1)

/-- The digits of the significand. -/
def digits (d : Decimal) : List Char := Nat.toDigits 10 d.significand

/-- The digits with a point, without exponent; at least `places` digits after the point, which is
left out when none are. -/
def positional (d : Decimal) (places : Nat) : String :=
  let ds := d.digits
  let point : Int := ds.length + d.exponent
  let whole := if point ≤ 0 then ['0']
    else ds.take point.toNat ++ List.replicate d.exponent.toNat '0'
  let fraction := if point ≤ 0 then List.replicate (-point).toNat '0' ++ ds
    else ds.drop point.toNat
  let fraction := fraction ++ List.replicate (places - fraction.length) '0'
  String.ofList (if fraction.isEmpty then whole else whole ++ '.' :: fraction)

/-- One digit before the point, and an exponent. -/
def scientific (d : Decimal) : String :=
  let ds := d.digits
  let fraction := ds.drop 1
  String.ofList (ds.take 1 ++ if fraction.isEmpty then [] else '.' :: fraction) ++ "e" ++
    toString ((ds.length : Int) - 1 + d.exponent)

end Decimal

end Demarcation
