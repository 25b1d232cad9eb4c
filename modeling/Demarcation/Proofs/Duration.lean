/-
Spans of time as numbers of nanoseconds. A span is known by its number, every number below the bound is that
of a span, and rounding up goes to the next whole millisecond.
-/
import Demarcation.Duration
import Mathlib.Algebra.Order.Group.Nat

namespace Demarcation.Duration

open Demarcation.Text

theorem toNanos_div (d : Duration) : d.toNanos / nanosPerSecond = d.seconds := by
  have hn : d.nanos < 1000000000 := d.nanos_lt
  simp only [toNanos, nanosPerSecond]
  omega

theorem toNanos_mod (d : Duration) : d.toNanos % nanosPerSecond = d.nanos := by
  have hn : d.nanos < 1000000000 := d.nanos_lt
  simp only [toNanos, nanosPerSecond]
  omega

theorem ofNanos?_toNanos (d : Duration) : ofNanos? d.toNanos = some d := by
  unfold ofNanos?
  simp only [toNanos_div, toNanos_mod, d.seconds_lt, dite_true]

theorem ofNanos?_eq_some_iff {n : Nat} {d : Duration} : ofNanos? n = some d ↔ d.toNanos = n := by
  constructor
  · intro h
    unfold ofNanos? at h
    split at h
    · cases h
      exact Nat.div_add_mod' n nanosPerSecond
    · cases h
  · rintro rfl
    exact ofNanos?_toNanos d

theorem exists_toNanos {n : Nat} (h : n < wordBound * nanosPerSecond) : ∃ d : Duration, d.toNanos = n := by
  have hseconds : n / nanosPerSecond < wordBound := Nat.div_lt_of_lt_mul (by rwa [Nat.mul_comm])
  exact ⟨⟨n / nanosPerSecond, n % nanosPerSecond, hseconds, Nat.mod_lt _ (by decide)⟩,
    Nat.div_add_mod' n nanosPerSecond⟩

/-! ## Rounding up -/

/-- A whole number of milliseconds. -/
def WholeMillis (d : Duration) : Prop := 1000000 ∣ d.toNanos

/-- A whole number of seconds, or a span that rounds up to a number of milliseconds below the word
bound. -/
def Legible (d : Duration) : Prop := d.nanos ≠ 0 → d.ceilMillis < wordBound

/-- The span rounded up to a whole number of milliseconds. -/
def ceil (d : Duration) : Duration := ofNanos (d.ceilMillis * 1000000)

theorem ofNanos_toNanos (d : Duration) : ofNanos d.toNanos = d := by
  rw [ofNanos, ofNanos?_toNanos, Option.getD_some]

theorem wholeMillis_of_seconds {d : Duration} (h : d.nanos = 0) : d.WholeMillis := by
  simp only [WholeMillis, toNanos, h, nanosPerSecond]
  omega

/-- The next whole number of milliseconds is less than one away. -/
theorem ceilMillis_bounds (d : Duration) :
    d.toNanos ≤ d.ceilMillis * 1000000 ∧ d.ceilMillis * 1000000 < d.toNanos + 1000000 := by
  unfold ceilMillis
  omega

theorem ceilMillis_of_wholeMillis {d : Duration} (h : d.WholeMillis) :
    d.ceilMillis * 1000000 = d.toNanos := by
  unfold WholeMillis at h
  unfold ceilMillis
  omega

theorem toNanos_ceil {d : Duration} (h : d.Legible) : d.ceil.toNanos = d.ceilMillis * 1000000 := by
  by_cases hnanos : d.nanos = 0
  · rw [ceil, ceilMillis_of_wholeMillis (wholeMillis_of_seconds hnanos), ofNanos_toNanos]
  · have hlt : d.ceilMillis * 1000000 < wordBound * nanosPerSecond := by
      have hword : d.ceilMillis < wordBound := h hnanos
      simp only [wordBound, nanosPerSecond] at *
      omega
    obtain ⟨e, he⟩ := exists_toNanos hlt
    rw [ceil, ← he, ofNanos_toNanos]

theorem ceil_of_wholeMillis {d : Duration} (h : d.WholeMillis) : d.ceil = d := by
  rw [ceil, ceilMillis_of_wholeMillis h, ofNanos_toNanos]

theorem wholeMillis_ceil {d : Duration} (h : d.Legible) : d.ceil.WholeMillis := by
  rw [WholeMillis, toNanos_ceil h]
  exact Nat.dvd_mul_left ..

end Demarcation.Duration
