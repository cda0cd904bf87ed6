import Mathlib.Order.MinMax
import Shortlist.Duration
import Shortlist.Proofs.Number.Finite

/-!
# Durations and seconds

A duration is turned into a number of seconds in three roundings: its whole seconds, the fraction of a
second that is left, and the sum of both.  A number of seconds is turned back by rounding to the nearest
nanosecond.  Both ways keep the order, so that what is shorter in one unit is not longer in the other.

For the way there this is not plain, as the three roundings are not one rounding of the exact quotient.
Between durations of the same number of whole seconds the fractions decide.  Otherwise the longer
duration has a second more at least, and the shorter one gains less than a second from its fraction: up
to 53 bits the sum stays exact to within that second, beyond the fraction is less than half a step of
the grid and is lost.
-/

namespace Shortlist.Duration

open Number
open Binary64 (one roundUnits grid Exact finite)

/-! ## 1. To seconds -/

/-- The units of a whole number of seconds. -/
def wholeUnits (n : Nat) : Nat := roundUnits (n * one) 1

/-- The units of a number of nanoseconds. -/
def fractionUnits (n : Nat) : Nat := roundUnits (n * one * one) (nanosPerSecond * one)

/-- The units of the number of seconds that a duration is. -/
def secondUnits (d : Duration) : Nat :=
  roundUnits (wholeUnits (d.nanos / nanosPerSecond) + fractionUnits (d.nanos % nanosPerSecond)) 1

variable {d e : Duration}

theorem nanosPerSecond_pos : 0 < nanosPerSecond := by decide

/-- The whole seconds of a duration fit into 64 bits. -/
theorem wholeSeconds_le (d : Duration) : d.nanos / nanosPerSecond ≤ twoTo 64 := by
  have hlongest : longestNanos ≤ nanosPerSecond * twoTo 64 := by decide
  exact Nat.div_le_of_le_mul (d.bounded.trans hlongest)

theorem wholeUnits_mono {m n : Nat} (h : m ≤ n) : wholeUnits m ≤ wholeUnits n :=
  Binary64.roundUnits_mono Nat.one_pos (Nat.mul_le_mul_right one h)

theorem exact_wholeUnits (n : Nat) : Exact (wholeUnits n) := Binary64.exact_roundUnits _ Nat.one_pos

/-- Up to 53 bits whole seconds are exact. -/
theorem wholeUnits_eq {n : Nat} (h : n ≤ twoTo 53) : wholeUnits n = n * one := by
  have hround := Binary64.roundUnits_of_exact (Binary64.exact_mul_one h) Nat.one_pos
  rwa [Nat.mul_one] at hround

theorem fractionUnits_mono {m n : Nat} (h : m ≤ n) : fractionUnits m ≤ fractionUnits n :=
  Binary64.roundUnits_mono (Nat.mul_pos nanosPerSecond_pos Binary64.one_pos)
    (Nat.mul_le_mul_right one (Nat.mul_le_mul_right one h))

/-- A number of nanoseconds below a second is rounded to less than a second. -/
theorem fractionUnits_lt {n : Nat} (h : n < nanosPerSecond) : fractionUnits n < one := by
  have hmost : fractionUnits 999999999 < one := by decide +kernel
  exact lt_of_le_of_lt (fractionUnits_mono (Nat.le_of_lt_succ h)) hmost

/-- **A duration is a finite number of seconds**, well below `2 ^ 65`. -/
theorem seconds_eq (d : Duration) :
    d.seconds = .finite false d.secondUnits ∧ d.secondUnits ≤ twoTo 65 * one := by
  have hnanos : d.nanos % nanosPerSecond < nanosPerSecond := Nat.mod_lt _ nanosPerSecond_pos
  obtain ⟨hwhole, hwholeLe⟩ := Binary64.ofNat_of_le (by decide) d.wholeSeconds_le
  have hrest : Binary64.ofNat (d.nanos % nanosPerSecond) =
      .finite false (d.nanos % nanosPerSecond * one) :=
    Binary64.ofNat_of_exact (hnanos.le.trans (by decide))
  have hper : Binary64.ofNat nanosPerSecond = .finite false (nanosPerSecond * one) :=
    Binary64.ofNat_of_exact (by decide)
  have hquotient : d.nanos % nanosPerSecond * one * one ≤ twoTo 0 * one * (nanosPerSecond * one) := by
    rw [show twoTo 0 = 1 from rfl, Nat.one_mul, Nat.mul_comm one]
    exact Nat.mul_le_mul_right one (Nat.mul_le_mul_right one hnanos.le)
  obtain ⟨hfraction, hfractionLe⟩ :=
    Binary64.div_finite (by decide) (Nat.mul_pos nanosPerSecond_pos Binary64.one_pos) hquotient
  have hsum : wholeUnits (d.nanos / nanosPerSecond) + fractionUnits (d.nanos % nanosPerSecond) ≤
      twoTo 65 * one :=
    calc wholeUnits (d.nanos / nanosPerSecond) + fractionUnits (d.nanos % nanosPerSecond)
        ≤ twoTo 64 * one + one := Nat.add_le_add hwholeLe (fractionUnits_lt hnanos).le
      _ = (twoTo 64 + 1) * one := by rw [Nat.add_mul, Nat.one_mul]
      _ ≤ twoTo 65 * one := Nat.mul_le_mul_right one (by decide)
  rw [seconds, hwhole, hrest, hper, hfraction]
  exact Binary64.add_finite (by decide) hsum

/-- **A second more outweighs any fraction of a second**, also when whole seconds are rounded. -/
theorem roundUnits_wholeUnits_add_le {m n fraction : Nat} (h : m < n) (hfraction : fraction < one) :
    roundUnits (wholeUnits m + fraction) 1 ≤ wholeUnits n := by
  rcases Nat.lt_or_ge m (twoTo 53) with hsmall | hlarge
  · refine Binary64.roundUnits_mono Nat.one_pos ?_
    calc wholeUnits m + fraction ≤ m * one + one := by
          rw [wholeUnits_eq hsmall.le]
          exact Nat.add_le_add_left hfraction.le _
      _ = (m + 1) * one := by rw [Nat.add_mul, Nat.one_mul]
      _ ≤ n * one := Nat.mul_le_mul_right one h
  · -- the grid is two seconds wide at least
    have hlower : twoTo 53 * one ≤ wholeUnits m := by
      rw [← wholeUnits_eq le_rfl]
      exact wholeUnits_mono hlarge
    have hgrid : 2 * one ≤ grid (wholeUnits m) := by
      refine Eq.trans_le ?_ (Binary64.grid_le_grid hlower)
      decide +kernel
    have hlost : roundUnits (wholeUnits m * 1 + fraction) 1 = wholeUnits m :=
      Binary64.roundUnits_add (exact_wholeUnits m) (by omega)
    rw [Nat.mul_one] at hlost
    exact hlost.le.trans (wholeUnits_mono h.le)

/-- **The longer of two durations has no fewer seconds.** -/
theorem secondUnits_mono (h : d.nanos ≤ e.nanos) : d.secondUnits ≤ e.secondUnits := by
  have hwhole : d.nanos / nanosPerSecond ≤ e.nanos / nanosPerSecond := Nat.div_le_div_right h
  rcases Nat.lt_or_eq_of_le hwhole with hless | hsame
  · have hd : d.secondUnits ≤ wholeUnits (e.nanos / nanosPerSecond) :=
      roundUnits_wholeUnits_add_le hless (fractionUnits_lt (Nat.mod_lt _ nanosPerSecond_pos))
    have he : wholeUnits (e.nanos / nanosPerSecond) ≤ e.secondUnits :=
      Binary64.le_roundUnits (exact_wholeUnits _) Nat.one_pos (by omega)
    exact hd.trans he
  · have hrest : d.nanos % nanosPerSecond ≤ e.nanos % nanosPerSecond := by
      have hdnanos := Nat.div_add_mod d.nanos nanosPerSecond
      have henanos := Nat.div_add_mod e.nanos nanosPerSecond
      rw [hsame] at hdnanos
      omega
    refine Binary64.roundUnits_mono Nat.one_pos ?_
    rw [hsame]
    exact Nat.add_le_add_left (fractionUnits_mono hrest) _

/-! ## 2. From seconds -/

/-- **A finite number of seconds** is rounded to the nearest nanosecond; what is too long becomes the
longest duration. -/
theorem nanos_saturating (u : Nat) :
    (saturating (.finite false u)).nanos = min (nearestEven (u * nanosPerSecond) one) longestNanos := by
  unfold saturating ofBinary64?
  simp only [Binary64.isFinite, Bool.not_true, Bool.false_or, Bool.false_and, Bool.false_eq_true,
    if_false]
  rcases Nat.eq_zero_or_pos u with rfl | hpos
  · have hzero : nearestEven (0 * nanosPerSecond) one = 0 := by decide +kernel
    have hle : (finite false 0).le Binary64.zero = true := by decide +kernel
    rw [hzero, if_pos hle, zero, Nat.zero_min]
  · have hle : ¬ (finite false u).le Binary64.zero = true := by
      simp [Binary64.le, Binary64.zero, Binary64.position?]
      omega
    rw [if_neg hle]
    split_ifs with h
    · rw [Nat.min_eq_left h, Option.getD_some]
    · rw [Nat.min_eq_right (Nat.le_of_not_le h), Option.getD_none, longest]

/-- **More seconds make no shorter duration.** -/
theorem saturating_mono {u v : Nat} (h : u ≤ v) :
    (saturating (.finite false u)).nanos ≤ (saturating (.finite false v)).nanos := by
  rw [nanos_saturating, nanos_saturating]
  exact min_le_min (nearestEven_mono (Nat.mul_le_mul_right _ h)) le_rfl

end Shortlist.Duration
