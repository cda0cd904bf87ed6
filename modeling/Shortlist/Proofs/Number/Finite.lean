import Mathlib.Order.Basic
import Shortlist.Proofs.Number.Rounding

/-!
# Arithmetic that stays finite

Sums, products and quotients of magnitudes that are far from the largest one are finite, so that their
magnitude is the rounding of the exact result and nothing else.  Everything here is about numbers without
a sign, of which one is given by its units; a number with a sign, an infinity and what is not a number
come in through `clamp` and `max`, which bring them back.
-/

namespace Shortlist.Number.Binary64

variable {negative : Bool} {num den k u v : Nat} {x : Binary64}

/-! ## 1. Rounding without overflow -/

/-- A power of two, as a number of units, is exact. -/
theorem exact_twoTo_mul_one (k : Nat) : Exact (twoTo k * one) := by
  have hexact := exact_mul_twoTo (n := 1) (k + 1074) (twoTo_pos 53)
  rwa [Nat.one_mul, twoTo_add] at hexact

theorem one_le_maxUnits : one ≤ maxUnits := by decide +kernel

theorem twoTo_mul_one_le (h : k ≤ 1023) : twoTo k * one ≤ maxUnits := by
  have hlargest : twoTo 1023 * one ≤ maxUnits := by decide +kernel
  have hpower : twoTo k * one ≤ twoTo 1023 * one := Nat.mul_le_mul_right one (twoTo_le_twoTo h)
  exact Nat.le_trans hpower hlargest

/-- **Below a power of two that is itself finite** a quotient is rounded to a finite number, which does
not exceed that power. -/
theorem ofQuotient_of_le (hk : k ≤ 1023) (hden : 0 < den) (h : num ≤ twoTo k * one * den) :
    ofQuotient negative num den = .finite negative (roundUnits num den) ∧
      roundUnits num den ≤ twoTo k * one := by
  have hle : roundUnits num den ≤ twoTo k * one := roundUnits_le (exact_twoTo_mul_one k) hden h
  have hfinite : ¬ maxUnits < roundUnits num den :=
    Nat.not_lt_of_le (Nat.le_trans hle (twoTo_mul_one_le hk))
  refine ⟨?_, hle⟩
  rw [ofQuotient, if_neg hfinite]

/-- Natural numbers of at most 53 bits are exact. -/
theorem exact_mul_one {n : Nat} (h : n ≤ twoTo 53) : Exact (n * one) := exact_mul_twoTo 1074 h

/-- **A natural number** up to a power of two. -/
theorem ofNat_of_le {n : Nat} (hk : k ≤ 1023) (h : n ≤ twoTo k) :
    ofNat n = .finite false (roundUnits (n * one) 1) ∧ roundUnits (n * one) 1 ≤ twoTo k * one := by
  refine ofQuotient_of_le hk Nat.one_pos ?_
  rw [Nat.mul_one]
  exact Nat.mul_le_mul_right one h

/-- A natural number of at most 53 bits is itself. -/
theorem ofNat_of_exact {n : Nat} (h : n ≤ twoTo 53) : ofNat n = .finite false (n * one) := by
  have hround := roundUnits_of_exact (exact_mul_one h) Nat.one_pos
  rw [Nat.mul_one] at hround
  rw [(ofNat_of_le (by decide) h).1, hround]

theorem ofNat_one : ofNat 1 = .finite false one := by
  rw [ofNat_of_exact (twoTo_pos 53), Nat.one_mul]

/-- A power of two is itself. -/
theorem twoPow_of_le (hk : k ≤ 1023) : twoPow k = .finite false (twoTo k * one) := by
  have hround := roundUnits_of_exact (exact_twoTo_mul_one k) Nat.one_pos
  rw [Nat.mul_one] at hround
  have hfinite : ¬ maxUnits < twoTo k * one := Nat.not_lt_of_le (twoTo_mul_one_le hk)
  rw [twoPow, ofQuotient, hround, if_neg hfinite]

/-! ## 2. Numbers without a sign -/

theorem add_finite (hk : k ≤ 1023) (h : u + v ≤ twoTo k * one) :
    (finite false u).add (finite false v) = .finite false (roundUnits (u + v) 1) ∧
      roundUnits (u + v) 1 ≤ twoTo k * one := by
  rw [add, if_pos (beq_self_eq_true false)]
  exact ofQuotient_of_le hk Nat.one_pos (by rwa [Nat.mul_one])

/-- **A sum of finite numbers** of any signs is finite when the sum of their magnitudes is. -/
theorem isFinite_add (hk : k ≤ 1023) (h : u + v ≤ twoTo k * one) (s t : Bool) :
    ((finite s u).add (finite t v)).isFinite = true := by
  have hround : ∀ (negative : Bool) (n : Nat), n ≤ u + v → (ofQuotient negative n 1).isFinite = true := by
    intro negative n hn
    rw [(ofQuotient_of_le hk Nat.one_pos (by rw [Nat.mul_one]; exact hn.trans h)).1, isFinite]
  rw [add]
  split_ifs
  · exact hround s (u + v) le_rfl
  · exact hround t (v - u) (by omega)
  · exact hround s (u - v) (by omega)
  · rfl

theorem mul_finite (hk : k ≤ 1023) (h : u * v ≤ twoTo k * one * one) (s t : Bool) :
    (finite s u).mul (finite t v) = .finite (s != t) (roundUnits (u * v) one) ∧
      roundUnits (u * v) one ≤ twoTo k * one := by
  rw [mul]
  exact ofQuotient_of_le hk one_pos h

theorem div_finite (hk : k ≤ 1023) (hv : 0 < v) (h : u * one ≤ twoTo k * one * v) :
    (finite false u).div (finite false v) = .finite false (roundUnits (u * one) v) ∧
      roundUnits (u * one) v ≤ twoTo k * one := by
  rw [div, if_neg (by simpa using hv.ne')]
  exact ofQuotient_of_le hk hv h

/-- Comparing two numbers compares their positions, if both have one. -/
theorem lt_iff {x y : Binary64} :
    x.lt y = true ↔ ∃ p ∈ x.position?, ∃ q ∈ y.position?, p < q := by
  unfold lt
  cases x.position? <;> cases y.position? <;> simp

theorem le_iff {x y : Binary64} :
    x.le y = true ↔ ∃ p ∈ x.position?, ∃ q ∈ y.position?, p ≤ q := by
  unfold le
  cases x.position? <;> cases y.position? <;> simp

theorem lt_finite_iff : (finite false u).lt (finite false v) = true ↔ u < v := by
  simp [lt, position?]

/-- What is above zero has no sign, and is not zero. -/
theorem zero_lt_finite_iff {s : Bool} : zero.lt (finite s u) = true ↔ s = false ∧ 0 < u := by
  cases s with
  | false => simp [zero, lt_finite_iff]
  | true =>
    simp [zero, lt, position?]

theorem min_finite (u v : Nat) :
    (finite false u).min (finite false v) = .finite false (Min.min u v) := by
  simp only [Binary64.min, lt_finite_iff]
  split_ifs with h
  · rw [Nat.min_eq_right h.le]
  · rw [Nat.min_eq_left (Nat.le_of_not_lt h)]

theorem max_finite (u v : Nat) :
    (finite false u).max (finite false v) = .finite false (Max.max u v) := by
  simp only [Binary64.max, lt_finite_iff]
  split_ifs with h
  · rw [Nat.max_eq_right h.le]
  · rw [Nat.max_eq_left (Nat.le_of_not_lt h)]

/-! ## 3. Back from other numbers -/

/-- **Between two finite numbers** there are only finite ones. -/
theorem exists_finite_of_between (hu : u ≤ maxUnits) (hlow : (finite false u).neg.le x = true)
    (hhigh : x.le (finite false u) = true) : ∃ t v, x = .finite t v ∧ v ≤ u := by
  obtain ⟨l, hl, q, hq, hlq⟩ := le_iff.mp hlow
  obtain ⟨q', hq', m, hm, hqm⟩ := le_iff.mp hhigh
  cases hl
  cases hm
  cases x with
  | nan => cases hq
  | infinity t =>
    cases hq
    cases hq'
    cases t
    all_goals
      simp only [Bool.not_false, if_true, Bool.false_eq_true, if_false] at hlq hqm
      omega
  | finite t v =>
    refine ⟨t, v, rfl, ?_⟩
    cases hq
    cases hq'
    cases t
    all_goals
      simp only [Bool.not_false, if_true, Bool.false_eq_true, if_false] at hlq hqm
      omega

/-- **The larger of a finite and a positive number** is a number without a sign, and not below the
positive one. -/
theorem exists_max_finite (hx : x.isFinite = true) (hv : 0 < v) :
    ∃ w, x.max (finite false v) = .finite false w ∧ v ≤ w := by
  cases x with
  | nan => cases hx
  | infinity s => cases hx
  | finite s u =>
    cases s with
    | false => exact ⟨Max.max u v, max_finite u v, Nat.le_max_right u v⟩
    | true =>
      have hlt : (finite true u).lt (finite false v) = true := by
        simp only [lt, position?, if_true, Bool.false_eq_true, if_false, decide_eq_true_eq]
        omega
      exact ⟨v, if_pos hlt, le_rfl⟩

/-- What is above one is above zero. -/
theorem zero_lt_of_one_lt {x : Binary64} (h : (finite false one).lt x = true) : zero.lt x = true := by
  obtain ⟨p, hp, q, hq, hlt⟩ := lt_iff.mp h
  refine lt_iff.mpr ⟨0, rfl, q, hq, ?_⟩
  cases hp
  exact lt_of_le_of_lt (Int.natCast_nonneg one) hlt

/-- What is neither below 0 nor above 1 is a number between them, or none at all. -/
theorem nan_or_finite_of_unit {x : Binary64} (hlow : ¬ x.lt zero = true)
    (hhigh : ¬ (finite false one).lt x = true) :
    x = .nan ∨ ∃ s u, x = .finite s u ∧ u ≤ one ∧ (zero.lt x = false → u = 0) := by
  cases x with
  | nan => exact Or.inl rfl
  | infinity s =>
    cases s with
    | true =>
      refine absurd (lt_iff.mpr ⟨_, rfl, _, rfl, ?_⟩) hlow
      simp only [if_true]
      omega
    | false =>
      refine absurd (lt_iff.mpr ⟨_, rfl, _, rfl, ?_⟩) hhigh
      have hone := one_le_maxUnits
      simp only [Bool.false_eq_true, if_false]
      omega
  | finite s u =>
    refine Or.inr ⟨s, u, rfl, ?_⟩
    cases s with
    | false =>
      rw [lt_finite_iff, Nat.not_lt] at hhigh
      refine ⟨hhigh, fun hnot => ?_⟩
      have hzero : ¬ 0 < u := fun hpos => by
        rw [zero, lt_finite_iff.mpr hpos] at hnot
        cases hnot
      exact Nat.eq_zero_of_not_pos hzero
    | true =>
      have hzero : u = 0 := by
        simp only [zero, lt, position?, if_true, Bool.false_eq_true, if_false, decide_eq_true_eq] at hlow
        omega
      exact ⟨hzero ▸ Nat.zero_le _, fun _ => hzero⟩

/-- **A number between 0 and 1** is what `clamp` makes of any number, unless that is not a number; and
it is positive only if the number is. -/
theorem clamp_unit (x : Binary64) :
    x.clamp zero (ofNat 1) = .nan ∨
      ∃ s u, x.clamp zero (ofNat 1) = .finite s u ∧ u ≤ one ∧ (zero.lt x = false → u = 0) := by
  rw [ofNat_one, clamp]
  by_cases hlow : x.lt zero = true
  · refine Or.inr ⟨false, 0, ?_, Nat.zero_le _, fun _ => rfl⟩
    have hone : ¬ (finite false one).lt zero = true := by simp [zero, lt_finite_iff]
    rw [if_pos hlow, if_neg hone, zero]
  · rw [if_neg hlow]
    by_cases hhigh : (finite false one).lt x = true
    · refine Or.inr ⟨false, one, by rw [if_pos hhigh], le_rfl, fun hnot => ?_⟩
      rw [zero_lt_of_one_lt hhigh] at hnot
      cases hnot
    · rw [if_neg hhigh]
      exact nan_or_finite_of_unit hlow hhigh

end Shortlist.Number.Binary64
