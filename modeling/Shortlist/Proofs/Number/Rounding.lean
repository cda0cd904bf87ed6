import Mathlib.Data.Nat.Log
import Mathlib.Data.Nat.Basic
import Shortlist.Number.Binary64

/-!
# Rounding keeps the order

A quotient is rounded to the nearest multiple of a step.  With one step for all quotients it is plain
that a larger quotient is not rounded to a smaller multiple (`nearestEven_mono`).  Double precision
numbers have a step of their own between any two powers of two, so a larger quotient may be rounded to
a coarser grid.  But the powers of two lie on both grids that meet there, and so no rounding crosses
them: what is below a power of two is rounded to it at most, what is above is not rounded below it
(`roundUnits_mono`).

A magnitude that lies on its own grid is *exact*.  Rounding leaves it alone, and also whatever exceeds it
by less than half a step.
-/

namespace Shortlist.Number

/-! ## 1. To the nearest integer -/

section NearestEven

variable {num den : Nat}

/-- The nearest integer is one of the two around the quotient. -/
theorem nearestEven_bounds (num den : Nat) :
    num / den ≤ nearestEven num den ∧ nearestEven num den ≤ num / den + 1 := by
  unfold nearestEven
  dsimp only
  split
  · omega
  · split <;> omega

/-- A rest of less than half the divisor is dropped. -/
theorem nearestEven_mul_add {rest : Nat} (n : Nat) (h : 2 * rest < den) :
    nearestEven (n * den + rest) den = n := by
  have hden : 0 < den := by omega
  have hdiv : (n * den + rest) / den = n := by
    rw [Nat.mul_comm, Nat.mul_add_div hden, Nat.div_eq_of_lt (by omega), Nat.add_zero]
  have hmod : (n * den + rest) % den = rest := by
    rw [Nat.mul_comm, Nat.mul_add_mod, Nat.mod_eq_of_lt (by omega)]
  unfold nearestEven
  rw [hdiv, hmod, if_pos h]

/-- A multiple of the divisor is divided exactly. -/
theorem nearestEven_mul (n : Nat) (h : 0 < den) : nearestEven (n * den) den = n :=
  nearestEven_mul_add n (show 2 * 0 < den by omega)

/-- **With one divisor** a larger number does not have a smaller nearest quotient. -/
theorem nearestEven_mono {num' : Nat} (h : num ≤ num') :
    nearestEven num den ≤ nearestEven num' den := by
  have hdiv : num / den ≤ num' / den := Nat.div_le_div_right h
  rcases Nat.lt_or_ge (num / den) (num' / den) with hlt | hge
  · have hupper := (nearestEven_bounds num den).2
    have hlower := (nearestEven_bounds num' den).1
    omega
  · -- the same integer below, so the rests compare as the numbers do
    have hsame : num / den = num' / den := Nat.le_antisymm hdiv hge
    have hnum := Nat.div_add_mod num den
    have hnum' := Nat.div_add_mod num' den
    rw [← hsame] at hnum'
    have hrest : num % den ≤ num' % den := by omega
    unfold nearestEven
    dsimp only
    rw [← hsame]
    split_ifs <;> omega

theorem nearestEven_le {n : Nat} (hden : 0 < den) (h : num ≤ n * den) : nearestEven num den ≤ n :=
  (nearestEven_mono h).trans (nearestEven_mul n hden).le

theorem le_nearestEven {n : Nat} (hden : 0 < den) (h : n * den ≤ num) : n ≤ nearestEven num den :=
  (nearestEven_mul n hden).ge.trans (nearestEven_mono h)

end NearestEven

namespace Binary64

/-! ## 2. The grids -/

theorem twoTo_pos (n : Nat) : 0 < twoTo n := Nat.two_pow_pos n

theorem twoTo_add (m n : Nat) : twoTo (m + n) = twoTo m * twoTo n := Nat.pow_add 2 m n

theorem twoTo_le_twoTo {m n : Nat} (h : m ≤ n) : twoTo m ≤ twoTo n := Nat.pow_le_pow_right (by decide) h

theorem one_pos : 0 < one := twoTo_pos 1074

theorem grid_pos (q : Nat) : 0 < grid q := twoTo_pos _

/-- The power of two at or below a positive number. -/
theorem twoTo_log2_le {q : Nat} (h : q ≠ 0) : twoTo (Nat.log2 q) ≤ q := Nat.log2_self_le h

/-- The power of two above a number. -/
theorem lt_twoTo_log2 (q : Nat) : q < twoTo (Nat.log2 q + 1) := Nat.lt_log2_self

theorem log2_le_log2 {m n : Nat} (h : m ≤ n) : Nat.log2 m ≤ Nat.log2 n := by
  rw [Nat.log2_eq_log_two, Nat.log2_eq_log_two]
  exact Nat.log_mono_right h

theorem grid_le_grid {p q : Nat} (h : p ≤ q) : grid p ≤ grid q :=
  twoTo_le_twoTo (Nat.sub_le_sub_right (Nat.succ_le_succ (log2_le_log2 h)) 53)

/-- Powers of two lie on the grids of all smaller numbers. -/
theorem grid_dvd_twoTo {q n : Nat} (h : Nat.log2 q ≤ n) : grid q ∣ twoTo n :=
  Nat.pow_dvd_pow 2 (by omega)

/-- A number between two neighbouring powers of two has the grid that belongs to them. -/
theorem grid_eq_of_bounds {q n : Nat} (hlower : twoTo n ≤ q) (hupper : q < twoTo (n + 1)) :
    grid q = twoTo (n + 1 - 53) := by
  have hq : q ≠ 0 := (Nat.lt_of_lt_of_le (twoTo_pos n) hlower).ne'
  have hlog : Nat.log2 q = n := (Nat.log2_eq_iff hq).mpr ⟨hlower, hupper⟩
  rw [grid, hlog]

/-! ## 3. To the nearest representable magnitude -/

section RoundUnits

variable {num num' den m : Nat}

/-- A magnitude that lies on its own grid. -/
def Exact (m : Nat) : Prop := grid m ∣ m

instance (m : Nat) : Decidable (Exact m) := inferInstanceAs (Decidable (_ ∣ _))

/-- What is at most a multiple of the step is rounded to that multiple at most. -/
theorem roundUnits_le_of_dvd (hden : 0 < den) (hm : grid (num / den) ∣ m) (h : num ≤ m * den) :
    roundUnits num den ≤ m := by
  obtain ⟨n, rfl⟩ := hm
  have hstep : 0 < den * grid (num / den) := Nat.mul_pos hden (grid_pos _)
  have hn : nearestEven num (den * grid (num / den)) ≤ n := by
    refine nearestEven_le hstep (h.trans_eq ?_)
    rw [Nat.mul_comm (grid _) n, Nat.mul_assoc, Nat.mul_comm (grid _) den]
  rw [Nat.mul_comm (grid _) n]
  exact Nat.mul_le_mul_right _ hn

/-- What is at least a multiple of the step is not rounded below it. -/
theorem le_roundUnits_of_dvd (hden : 0 < den) (hm : grid (num / den) ∣ m) (h : m * den ≤ num) :
    m ≤ roundUnits num den := by
  obtain ⟨n, rfl⟩ := hm
  have hstep : 0 < den * grid (num / den) := Nat.mul_pos hden (grid_pos _)
  have hn : n ≤ nearestEven num (den * grid (num / den)) := by
    refine le_nearestEven hstep (Eq.trans_le ?_ h)
    rw [Nat.mul_comm (grid _) n, Nat.mul_assoc, Nat.mul_comm (grid _) den]
  rw [Nat.mul_comm (grid _) n]
  exact Nat.mul_le_mul_right _ hn

/-- A quotient lies below the power of two that belongs to its integer part. -/
theorem lt_twoTo_mul (num : Nat) (hden : 0 < den) :
    num < twoTo (Nat.log2 (num / den) + 1) * den :=
  (Nat.div_lt_iff_lt_mul hden).mp (lt_twoTo_log2 (num / den))

/-- **A larger quotient is not rounded to a smaller magnitude.** -/
theorem roundUnits_mono (hden : 0 < den) (h : num ≤ num') :
    roundUnits num den ≤ roundUnits num' den := by
  have hdiv : num / den ≤ num' / den := Nat.div_le_div_right h
  rcases Nat.lt_or_ge (Nat.log2 (num / den)) (Nat.log2 (num' / den)) with hlt | hge
  · -- a power of two lies between the quotients, and on both of their grids
    have hupper : roundUnits num den ≤ twoTo (Nat.log2 (num / den) + 1) :=
      roundUnits_le_of_dvd hden (grid_dvd_twoTo (by omega)) (lt_twoTo_mul num hden).le
    have hpositive : num' / den ≠ 0 := by
      intro hzero
      rw [hzero, Nat.log2_zero] at hlt
      exact absurd hlt (Nat.not_lt_zero _)
    have hlower : twoTo (Nat.log2 (num' / den)) ≤ roundUnits num' den :=
      le_roundUnits_of_dvd hden (grid_dvd_twoTo le_rfl)
        ((Nat.mul_le_mul_right den (twoTo_log2_le hpositive)).trans (Nat.div_mul_le_self num' den))
    exact hupper.trans ((twoTo_le_twoTo hlt).trans hlower)
  · -- both have the same grid
    have hlog : Nat.log2 (num / den) = Nat.log2 (num' / den) :=
      Nat.le_antisymm (log2_le_log2 hdiv) hge
    have hgrid : grid (num / den) = grid (num' / den) := by rw [grid, grid, hlog]
    unfold roundUnits
    dsimp only
    rw [hgrid]
    exact Nat.mul_le_mul_right _ (nearestEven_mono h)

/-! ## 4. Exact magnitudes -/

/-- A magnitude of at most 53 significant bits is exact. -/
theorem exact_mul_twoTo {n : Nat} (k : Nat) (h : n ≤ twoTo 53) : Exact (n * twoTo k) := by
  rcases Nat.lt_or_eq_of_le h with hlt | rfl
  · rcases Nat.eq_zero_or_pos n with rfl | hpos
    · rw [Nat.zero_mul]
      exact Nat.dvd_zero _
    · have hlog : Nat.log2 (n * twoTo k) < 53 + k := by
        refine (Nat.log2_lt (Nat.mul_pos hpos (twoTo_pos k)).ne').mpr ?_
        exact (Nat.mul_lt_mul_of_pos_right hlt (twoTo_pos k)).trans_eq (twoTo_add 53 k).symm
      have hdvd : grid (n * twoTo k) ∣ twoTo k := Nat.pow_dvd_pow 2 (by omega)
      exact Nat.dvd_mul_left_of_dvd hdvd n
  · rw [← twoTo_add]
    exact grid_dvd_twoTo (Nat.log2_two_pow).le

/-- Whatever is rounded becomes exact. -/
theorem exact_roundUnits (num : Nat) (hden : 0 < den) : Exact (roundUnits num den) := by
  refine exact_mul_twoTo _ (nearestEven_le (Nat.mul_pos hden (grid_pos _)) ?_)
  have hbits : twoTo (Nat.log2 (num / den) + 1) ≤ twoTo 53 * grid (num / den) :=
    (twoTo_le_twoTo (by omega)).trans_eq (twoTo_add 53 _)
  calc num ≤ twoTo (Nat.log2 (num / den) + 1) * den := (lt_twoTo_mul num hden).le
    _ ≤ twoTo 53 * grid (num / den) * den := Nat.mul_le_mul_right den hbits
    _ = twoTo 53 * (den * grid (num / den)) := by rw [Nat.mul_assoc, Nat.mul_comm (grid _) den]

/-- Less than one step above an exact magnitude the grid is still the same. -/
theorem grid_add {extra : Nat} (hm : Exact m) (h : extra < grid m) : grid (m + extra) = grid m := by
  rcases Nat.eq_zero_or_pos m with rfl | hpos
  · rw [Nat.lt_one_iff.mp h]
  · -- up to the next power of two there is room for a whole step
    have hroom : m + grid m ≤ twoTo (Nat.log2 m + 1) := by
      have hdvd : grid m ∣ twoTo (Nat.log2 m + 1) - m :=
        Nat.dvd_sub (grid_dvd_twoTo (by omega)) hm
      have hlt := lt_twoTo_log2 m
      have hle := Nat.le_of_dvd (by omega) hdvd
      omega
    have hlower : twoTo (Nat.log2 m) ≤ m + extra := (twoTo_log2_le hpos.ne').trans (Nat.le_add_right m extra)
    exact grid_eq_of_bounds hlower (by omega)

/-- **Rounding leaves exact magnitudes alone**, and what exceeds them by less than half a step. -/
theorem roundUnits_add {rest : Nat} (hm : Exact m) (h : 2 * rest < den * grid m) :
    roundUnits (m * den + rest) den = m := by
  have hden : 0 < den := Nat.pos_of_mul_pos_right (Nat.zero_lt_of_lt h)
  have hextra : rest / den < grid m := (Nat.div_lt_iff_lt_mul hden).mpr (by
    rw [Nat.mul_comm]
    omega)
  have hgrid : grid ((m * den + rest) / den) = grid m := by
    rw [Nat.mul_comm m den, Nat.mul_add_div hden]
    exact grid_add hm hextra
  obtain ⟨n, hn⟩ := hm
  unfold roundUnits
  dsimp only
  rw [hgrid]
  have hnum : m * den = n * (den * grid m) := by
    conv => lhs; rw [hn]
    rw [Nat.mul_comm (grid m) n, Nat.mul_assoc, Nat.mul_comm (grid m) den]
  rw [hnum, nearestEven_mul_add n h, Nat.mul_comm, ← hn]

theorem roundUnits_of_exact (hm : Exact m) (hden : 0 < den) : roundUnits (m * den) den = m :=
  roundUnits_add hm (show 2 * 0 < den * grid m from Nat.mul_pos hden (grid_pos m))

/-- What is at least an exact magnitude is not rounded below it. -/
theorem le_roundUnits (hm : Exact m) (hden : 0 < den) (h : m * den ≤ num) : m ≤ roundUnits num den :=
  (roundUnits_of_exact hm hden).ge.trans (roundUnits_mono hden h)

/-- What is at most an exact magnitude is rounded to it at most. -/
theorem roundUnits_le (hm : Exact m) (hden : 0 < den) (h : num ≤ m * den) : roundUnits num den ≤ m :=
  (roundUnits_mono hden h).trans (roundUnits_of_exact hm hden).le

end RoundUnits

end Binary64

end Shortlist.Number
