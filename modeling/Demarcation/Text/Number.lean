/-
Numbers in decimal digits.
-/

namespace Demarcation.Text

/-- The value of an ASCII digit. -/
def digit? (c : Char) : Option Nat :=
  if 0x30 ≤ c.toNat ∧ c.toNat ≤ 0x39 then some (c.toNat - 0x30) else none

def isDigit (c : Char) : Bool := (digit? c).isSome

/-- The number that continues `n` with more digits; nothing if another character occurs. -/
def digitsFrom (n : Nat) : List Char → Option Nat
  | [] => some n
  | c :: s => (digit? c).bind fun d => digitsFrom (n * 10 + d) s

/-- A number of one or more digits. -/
def digits? : List Char → Option Nat
  | [] => none
  | c :: s => digitsFrom 0 (c :: s)

/-- The bound of the unsigned sixty-four-bit numbers: the sixty-fourth power of two. -/
abbrev wordBound : Nat := 18446744073709551616

/-- A number below the word bound, with an optional plus sign before its digits. -/
def word? (s : List Char) : Option Nat :=
  let n? := match s with
    | '+' :: r => digits? r
    | _ => digits? s
  n?.filter (· < wordBound)

/-- A number in lower-case hexadecimal digits. -/
def hex (n : Nat) : String := String.ofList (Nat.toDigits 16 n)

end Demarcation.Text
