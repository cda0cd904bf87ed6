import Shortlist.Number.Binary64

/-!
# Durations

A duration counts nanoseconds, at most `2 ^ 64 - 1` seconds and 999 999 999 nanoseconds.  It is
read from a number of seconds by rounding the exact value to the nearest nanosecond.
-/

namespace Shortlist

/-! ## 1. The type -/

/-- Nanoseconds in a second. -/
def nanosPerSecond : Nat := 1000000000

/-- The nanoseconds of the longest duration. -/
def longestNanos : Nat := Number.twoTo 64 * nanosPerSecond - 1

/-- A span of time in nanoseconds. -/
structure Duration where
  nanos : Nat
  bounded : nanos ≤ longestNanos
deriving Repr, DecidableEq

namespace Duration

/-- No time at all. -/
def zero : Duration := ⟨0, Nat.zero_le _⟩

/-- The longest duration. -/
def longest : Duration := ⟨longestNanos, Nat.le_refl _⟩

/-- So many nanoseconds, or the longest duration if that is shorter. -/
def ofNanos (n : Nat) : Duration := ⟨min n longestNanos, Nat.min_le_right _ _⟩

/-- So many whole seconds. -/
def ofSeconds (n : Nat) : Duration := ofNanos (n * nanosPerSecond)

/-- The longer of two durations. -/
def max (a b : Duration) : Duration := if a.nanos < b.nanos then b else a

instance : Inhabited Duration := ⟨zero⟩

/-! ## 2. Seconds -/

open Number (Binary64)

/-- The duration as a number of seconds: the whole seconds plus the fraction, each rounded. -/
def seconds (d : Duration) : Binary64 :=
  (Binary64.ofNat (d.nanos / nanosPerSecond)).add
    ((Binary64.ofNat (d.nanos % nanosPerSecond)).div (Binary64.ofNat nanosPerSecond))

/-- The duration nearest to a number of seconds.  There is none for a negative number, for one that
is not finite, or beyond the longest duration. -/
def ofBinary64? : Binary64 → Option Duration
  | .finite negative units =>
    let nanos := Number.nearestEven (units * nanosPerSecond) Binary64.one
    if negative && units != 0 then none
    else if h : nanos ≤ longestNanos then some ⟨nanos, h⟩
    else none
  | _ => none

/-- The duration of a number of seconds that came from outside: none for what is not a finite
positive number, the longest for what is too long. -/
def saturating (x : Binary64) : Duration :=
  if !x.isFinite || x.le Binary64.zero then zero else (ofBinary64? x).getD longest

end Duration

end Shortlist
