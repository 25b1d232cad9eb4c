/-
Reading numbers back. What counts as a numeral and as a number below the word bound is told by the digits
alone, the readers find exactly these, and what is written for a number is a numeral of its value.
-/
import Demarcation.Text.Number

namespace Demarcation.Text

/-- One or more decimal digits, of the value `n`. -/
structure Numeral (s : List Char) (n : Nat) : Prop where
  ne_nil : s ≠ []
  digits : ∀ c ∈ s, c.isDigit = true
  value : Nat.ofDigitChars 10 s 0 = n

/-- A numeral below the word bound, or one behind a plus sign. -/
def WordNumeral (s : List Char) (n : Nat) : Prop :=
  n < wordBound ∧ ∃ ds, Numeral ds n ∧ (s = ds ∨ s = '+' :: ds)

theorem isDigit_iff (c : Char) : c.isDigit = true ↔ 0x30 ≤ c.toNat ∧ c.toNat ≤ 0x39 := by
  simp [Char.isDigit, UInt32.le_iff_toNat_le]

theorem digit?_eq_some_iff {c : Char} {d : Nat} :
    digit? c = some d ↔ c.isDigit = true ∧ c.toNat - '0'.toNat = d := by
  unfold digit?
  rw [isDigit_iff]
  split
  · rename_i h
    simp [h]
  · rename_i h
    simp [h]

theorem digitsFrom_eq_some_iff {s : List Char} {n m : Nat} :
    digitsFrom n s = some m ↔ (∀ c ∈ s, c.isDigit = true) ∧ Nat.ofDigitChars 10 s n = m := by
  induction s generalizing n with
  | nil => simp [digitsFrom]
  | cons c s ih =>
    simp only [digitsFrom, Option.bind_eq_some_iff, digit?_eq_some_iff, ih, Nat.ofDigitChars_cons,
      List.forall_mem_cons, Nat.mul_comm n 10]
    constructor
    · rintro ⟨d, ⟨hc, rfl⟩, hs, hm⟩
      exact ⟨⟨hc, hs⟩, hm⟩
    · rintro ⟨⟨hc, hs⟩, hm⟩
      exact ⟨_, ⟨hc, rfl⟩, hs, hm⟩

theorem digits?_eq_some_iff {s : List Char} {n : Nat} : digits? s = some n ↔ Numeral s n := by
  cases s with
  | nil =>
    simp only [digits?, reduceCtorEq, false_iff]
    exact fun h => h.ne_nil rfl
  | cons c s =>
    rw [digits?, digitsFrom_eq_some_iff]
    constructor
    · rintro ⟨hdigits, hvalue⟩
      exact ⟨List.cons_ne_nil c s, hdigits, hvalue⟩
    · rintro ⟨-, hdigits, hvalue⟩
      exact ⟨hdigits, hvalue⟩

theorem not_numeral_plus {s : List Char} {n : Nat} : ¬ Numeral ('+' :: s) n := by
  intro h
  have hplus := h.digits '+' (List.mem_cons_self ..)
  revert hplus
  decide

theorem word?_eq_some_iff {s : List Char} {n : Nat} : word? s = some n ↔ WordNumeral s n := by
  have hbound : ∀ n? : Option Nat, n?.filter (· < wordBound) = some n ↔ n < wordBound ∧ n? = some n := by
    intro n?
    simp only [Option.filter_eq_some_iff, decide_eq_true_eq]
    exact and_comm
  unfold word? WordNumeral
  split
  · rename_i r
    rw [hbound, digits?_eq_some_iff]
    constructor
    · rintro ⟨hn, hr⟩
      exact ⟨hn, r, hr, .inr rfl⟩
    · rintro ⟨hn, ds, hds, rfl | hplus⟩
      · exact absurd hds not_numeral_plus
      · cases hplus
        exact ⟨hn, hds⟩
  · rename_i hs
    rw [hbound, digits?_eq_some_iff]
    constructor
    · rintro ⟨hn, hr⟩
      exact ⟨hn, s, hr, .inl rfl⟩
    · rintro ⟨hn, ds, hds, rfl | hplus⟩
      · exact ⟨hn, hds⟩
      · exact absurd hplus (hs ds)

theorem numeral_toDigits (n : Nat) : Numeral (Nat.toDigits 10 n) n :=
  ⟨Nat.toDigits_ne_nil, fun c hc => Nat.isDigit_of_mem_toDigits (by decide) (by decide) hc,
    Nat.ofDigitChars_ten_toDigits⟩

theorem numeral_toString (n : Nat) : Numeral (toString n).toList n := by
  rw [Nat.toString_eq_repr, Nat.toList_repr]
  exact numeral_toDigits n

theorem wordNumeral_toString {n : Nat} (h : n < wordBound) : WordNumeral (toString n).toList n :=
  ⟨h, _, numeral_toString n, .inl rfl⟩

end Demarcation.Text
