/-
Spans of time, in whole seconds and nanoseconds.
-/
import Demarcation.Text.Number
import Demarcation.Text.Record

namespace Demarcation

/-- How many nanoseconds a second has. -/
abbrev nanosPerSecond : Nat := 1000000000

/-- A span of time: up to the largest sixty-four-bit number of seconds, and less than one second of
nanoseconds. -/
structure Duration where
  seconds : Nat
  nanos : Nat
  seconds_lt : seconds < Text.wordBound
  nanos_lt : nanos < nanosPerSecond
deriving DecidableEq, Repr

namespace Duration

def zero : Duration := ⟨0, 0, by decide, by decide⟩

instance : Inhabited Duration := ⟨zero⟩

/-- The longest span. -/
def longest : Duration := ⟨Text.wordBound - 1, nanosPerSecond - 1, by decide, by decide⟩

/-- The span in nanoseconds. -/
def toNanos (d : Duration) : Nat := d.seconds * nanosPerSecond + d.nanos

/-- A span of `n` nanoseconds, if it is not too long. -/
def ofNanos? (n : Nat) : Option Duration :=
  if h : n / nanosPerSecond < Text.wordBound then
    some ⟨n / nanosPerSecond, n % nanosPerSecond, h, Nat.mod_lt _ (by decide)⟩
  else none

/-- A span of `n` nanoseconds, cut to the longest span. -/
def ofNanos (n : Nat) : Duration := (ofNanos? n).getD longest

/-- A span of seconds and any number of nanoseconds, which carry into the seconds. -/
def ofParts? (seconds nanos : Nat) : Option Duration := ofNanos? (seconds * nanosPerSecond + nanos)

def ofSeconds? (n : Nat) : Option Duration := ofParts? n 0

def ofMillis? (n : Nat) : Option Duration := ofNanos? (n * 1000000)

/-- The span in milliseconds, rounded up. -/
def ceilMillis (d : Duration) : Nat := (d.toNanos + 999999) / 1000000

/-- A whole number and a fraction of `width` digits, without the zeros at the fraction's end. -/
def fractional (whole fraction width : Nat) : String :=
  let ds := Nat.toDigits 10 fraction
  let padded := List.replicate (width - ds.length) '0' ++ ds
  let kept := (padded.reverse.dropWhile (· == '0')).reverse
  toString whole ++ if kept.isEmpty then "" else "." ++ String.ofList kept

/-- The span in the largest unit of which it holds at least one, with as many decimals as it
needs. -/
def text (d : Duration) : String :=
  if 0 < d.seconds then fractional d.seconds d.nanos 9 ++ "s"
  else if 1000000 ≤ d.nanos then fractional (d.nanos / 1000000) (d.nanos % 1000000) 6 ++ "ms"
  else if 1000 ≤ d.nanos then fractional (d.nanos / 1000) (d.nanos % 1000) 3 ++ "µs"
  else toString d.nanos ++ "ns"

end Duration

end Demarcation
