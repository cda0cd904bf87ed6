import Shortlist.Proofs.Duration
import Shortlist.Settings.Basic

/-!
# Waits between attempts

The wait before another attempt is a finite number of seconds that is at least a tenth of one, whatever
the settings say: the delays in the settings become durations, which are finite; doubling such a
duration 63 times at most stays far below the largest number; and jitter adds at most the wait itself,
as the fraction of it is brought between 0 and 1.  What jitter takes away does not matter, as the
shortest wait is put in its place.

Without jitter the wait of an attempt is a chain of operations that keep the order, from the power of two
to the nanoseconds.  So waits never get shorter, and none is longer than that of attempt 63, as the
power of two does not grow any more.  A run of attempts then gives its waits in that order, one for each
attempt that is left, and nothing behind them.
-/

namespace Shortlist

open Number
open Binary64 (one roundUnits finite)
open Duration (saturating)

/-! ## 1. The wait without jitter -/

section Backoff

variable {base ceiling wait : Duration} {fraction draw : Binary64}

/-- The wait before jitter in units. -/
theorem backoff_eq (attempt : Nat) (base ceiling : Duration) :
    backoff attempt base ceiling =
      saturating (.finite false
        (min (roundUnits (base.secondUnits * (twoTo (min attempt 63) * one)) one) ceiling.secondUnits)) := by
  have hpower : twoTo (min attempt 63) ≤ twoTo 63 := Binary64.twoTo_le_twoTo (Nat.min_le_right _ _)
  obtain ⟨hbase, hbaseLe⟩ := base.seconds_eq
  have hproduct : base.secondUnits * (twoTo (min attempt 63) * one) ≤ twoTo 128 * one * one :=
    calc base.secondUnits * (twoTo (min attempt 63) * one)
        ≤ twoTo 65 * one * (twoTo 63 * one) :=
          Nat.mul_le_mul hbaseLe (Nat.mul_le_mul_right one hpower)
      _ = twoTo 128 * one * one := by
          rw [show twoTo 128 = twoTo 65 * twoTo 63 from Binary64.twoTo_add 65 63]
          rw [Nat.mul_mul_mul_comm, Nat.mul_assoc (twoTo 65 * twoTo 63)]
  rw [backoff, hbase, ceiling.seconds_eq.1,
    Binary64.twoPow_of_le ((Nat.min_le_right attempt 63).trans (by decide)),
    (Binary64.mul_finite (by decide) hproduct false false).1, bne_self_eq_false, Binary64.min_finite]

/-- **Waits grow with the attempts** before jitter. -/
theorem backoff_mono {a b : Nat} (h : a ≤ b) :
    (backoff a base ceiling).nanos ≤ (backoff b base ceiling).nanos := by
  rw [backoff_eq, backoff_eq]
  refine Duration.saturating_mono (min_le_min ?_ le_rfl)
  refine Binary64.roundUnits_mono Binary64.one_pos (Nat.mul_le_mul_left _ (Nat.mul_le_mul_right one ?_))
  exact Binary64.twoTo_le_twoTo (min_le_min h le_rfl)

/-- From attempt 63 on the wait stays the same. -/
theorem backoff_of_le {attempt : Nat} (h : 63 ≤ attempt) :
    backoff attempt base ceiling = backoff 63 base ceiling := by
  rw [backoff, backoff, Nat.min_eq_right h, Nat.min_self]

/-! ## 2. The shortest wait -/

/-- A tenth of a second as a number of seconds is a tenth of a second again. -/
theorem le_saturating {u : Nat} (h : shortestDelay.secondUnits ≤ u) :
    shortestDelay.nanos ≤ (saturating (.finite false u)).nanos := by
  have hshortest : shortestDelay.nanos ≤ (saturating (.finite false shortestDelay.secondUnits)).nanos := by
    rw [Duration.nanos_saturating]
    decide +kernel
  exact hshortest.trans (Duration.saturating_mono h)

/-- **A finite number of seconds** makes a wait of at least a tenth of a second. -/
theorem shortestDelay_le {x : Binary64} (h : x.isFinite = true) :
    shortestDelay.nanos ≤ (saturating (x.max shortestDelay.seconds)).nanos := by
  have hpositive : 0 < shortestDelay.secondUnits := by decide +kernel
  obtain ⟨w, hw, hle⟩ := Binary64.exists_max_finite h hpositive
  rw [shortestDelay.seconds_eq.1, hw]
  exact le_saturating hle

/-! ## 3. Jitter -/

/-- **The range of jitter** is not a number, or it is finite and at most the wait; and there is none if
the fraction is not positive. -/
theorem jitterRange_cases (wait : Duration) (fraction : Binary64) :
    jitterRange wait fraction = .nan ∨
      ∃ s u, jitterRange wait fraction = .finite s u ∧ u ≤ wait.secondUnits ∧
        (Binary64.zero.lt fraction = false → u = 0) := by
  obtain ⟨hwait, hwaitLe⟩ := wait.seconds_eq
  rw [jitterRange, hwait]
  rcases Binary64.clamp_unit fraction with hnan | ⟨s, u, hclamp, hunit, hzero⟩
  · rw [hnan]
    exact Or.inl rfl
  · have hproduct : wait.secondUnits * u ≤ wait.secondUnits * one := Nat.mul_le_mul_left _ hunit
    have hfits : wait.secondUnits * u ≤ twoTo 65 * one * one :=
      hproduct.trans (Nat.mul_le_mul_right one hwaitLe)
    rw [hclamp, (Binary64.mul_finite (by decide) hfits false s).1]
    refine Or.inr ⟨_, _, rfl, ?_, fun hfraction => ?_⟩
    · exact Binary64.roundUnits_le (Binary64.exact_roundUnits _ Nat.one_pos) Binary64.one_pos hproduct
    · rw [hzero hfraction, Nat.mul_zero]
      exact Nat.le_zero.mp (Binary64.roundUnits_le (Nat.dvd_zero _) Binary64.one_pos (Nat.zero_le _))

/-- **Where there is jitter**, its range is a number without a sign and at most the wait. -/
theorem jitterRange_eq (h : Binary64.zero.lt (jitterRange wait fraction) = true) :
    ∃ u, jitterRange wait fraction = .finite false u ∧ u ≤ wait.secondUnits := by
  rcases jitterRange_cases wait fraction with hnan | ⟨s, u, hrange, hle, -⟩
  · rw [hnan] at h
    cases h
  · rw [hrange] at h ⊢
    obtain ⟨rfl, -⟩ := Binary64.zero_lt_finite_iff.mp h
    exact ⟨u, rfl, hle⟩

/-- A fraction that is not positive makes no jitter. -/
theorem jitterRange_not_pos (wait : Duration) (h : Binary64.zero.lt fraction = false) :
    Binary64.zero.lt (jitterRange wait fraction) = false := by
  rw [← Bool.not_eq_true]
  intro hpos
  rcases jitterRange_cases wait fraction with hnan | ⟨s, u, hrange, -, hzero⟩
  · rw [hnan] at hpos
    cases hpos
  · rw [hrange, hzero h, Binary64.zero_lt_finite_iff] at hpos
    exact absurd hpos.2 (Nat.lt_irrefl 0)

/-- The policy made from settings has no more jitter than these. -/
theorem RetrySection.policy_jitter_not_pos {s : RetrySection} (h : Binary64.zero.lt s.jitter = false) :
    Binary64.zero.lt s.policy.jitter = false := by
  rw [← Bool.not_eq_true]
  intro hpos
  rcases Binary64.clamp_unit s.jitter with hnan | ⟨sign, u, hclamp, -, hzero⟩
  · rw [policy, hnan] at hpos
    cases hpos
  · rw [policy, hclamp, hzero h, Binary64.zero_lt_finite_iff] at hpos
    exact absurd hpos.2 (Nat.lt_irrefl 0)

/-- Room for two numbers of seconds. -/
theorem twoTo_sixtySix_mul_one : twoTo 66 * one = twoTo 65 * one + twoTo 65 * one := by
  rw [show twoTo 66 = twoTo 65 * 2 from rfl, Nat.mul_right_comm, Nat.mul_two]

/-- The bounds between which a number is drawn: they are finite and in order, and so is the distance
between them. -/
structure DrawBounds (low high : Binary64) : Prop where
  low_finite : low.isFinite = true
  high_finite : high.isFinite = true
  ordered : low.le high = true
  distance_finite : (high.add low.neg).isFinite = true

/-- **A number can be drawn from the range of jitter.** -/
theorem drawBounds_jitterRange (h : Binary64.zero.lt (jitterRange wait fraction) = true) :
    DrawBounds (jitterRange wait fraction).neg (jitterRange wait fraction) := by
  obtain ⟨u, hrange, hle⟩ := jitterRange_eq h
  have hsum : u + u ≤ twoTo 66 * one := by
    have hu : u ≤ twoTo 65 * one := hle.trans wait.seconds_eq.2
    rw [twoTo_sixtySix_mul_one]
    omega
  rw [hrange]
  constructor
  · rfl
  · rfl
  · refine Binary64.le_iff.mpr ⟨_, rfl, _, rfl, ?_⟩
    simp only [Bool.not_false, if_true, Bool.false_eq_true, if_false]
    omega
  · simp only [Binary64.neg, Bool.not_not]
    rw [(Binary64.add_finite (by decide) hsum).1]
    rfl

/-- The number of seconds that jitter makes of a wait. -/
def movedSeconds (wait : Duration) (fraction draw : Binary64) : Binary64 :=
  if Binary64.zero.lt (jitterRange wait fraction) then wait.seconds.add draw else wait.seconds

theorem delayWith_eq (attempt : Nat) (base ceiling : Duration) (fraction draw : Binary64) :
    delayWith attempt base ceiling fraction draw =
      saturating ((movedSeconds (backoff attempt base ceiling) fraction draw).max
        shortestDelay.seconds) := by
  rw [delayWith, movedSeconds]

/-- **A wait that is moved within the range of jitter** is still finite. -/
theorem isFinite_movedSeconds
    (h : Binary64.zero.lt (jitterRange wait fraction) = true →
      (jitterRange wait fraction).neg.le draw = true ∧ draw.le (jitterRange wait fraction) = true) :
    (movedSeconds wait fraction draw).isFinite = true := by
  obtain ⟨hwait, hwaitLe⟩ := wait.seconds_eq
  rw [movedSeconds, hwait]
  split_ifs with hrange
  · obtain ⟨hlow, hhigh⟩ := h hrange
    obtain ⟨u, hu, hle⟩ := jitterRange_eq hrange
    rw [hu] at hlow hhigh
    have hlargest : u ≤ Binary64.maxUnits :=
      (hle.trans hwaitLe).trans (Binary64.twoTo_mul_one_le (by decide))
    obtain ⟨t, v, rfl, hv⟩ := Binary64.exists_finite_of_between hlargest hlow hhigh
    refine Binary64.isFinite_add (k := 66) (by decide) ?_ false t
    rw [twoTo_sixtySix_mul_one]
    omega
  · rfl

end Backoff

/-! ## 4. Policies -/

namespace RetryPolicy

variable {p : RetryPolicy} {a b attempt : Nat} {draw draw' : Binary64}

theorem allows_iff : p.allows attempt = true ↔ attempt < p.maxAttempts := decide_eq_true_iff

/-- By how much jitter may move the wait of an attempt. -/
def range (p : RetryPolicy) (attempt : Nat) : Binary64 :=
  jitterRange (backoff attempt p.baseDelay p.maxDelay) p.jitter

/-- A number that may be drawn for the wait of an attempt.  Where there is no jitter none is drawn, and
then it may be any. -/
def MayDraw (p : RetryPolicy) (attempt : Nat) (draw : Binary64) : Prop :=
  Binary64.zero.lt (p.range attempt) = true →
    (p.range attempt).neg.le draw = true ∧ draw.le (p.range attempt) = true

instance (p : RetryPolicy) (attempt : Nat) (draw : Binary64) : Decidable (p.MayDraw attempt draw) :=
  inferInstanceAs (Decidable (_ → _))

/-- **No wait is shorter than the shortest one.** -/
theorem shortestDelay_le_delay (h : p.MayDraw attempt draw) :
    shortestDelay.nanos ≤ (p.delay attempt draw).nanos := by
  rw [delay, delayWith_eq]
  exact shortestDelay_le (isFinite_movedSeconds h)

/-- **Without jitter** a wait is the one before jitter, or the shortest one if that is longer. -/
theorem delay_eq (h : Binary64.zero.lt p.jitter = false) (attempt : Nat) (draw : Binary64) :
    p.delay attempt draw =
      saturating (.finite false
        (max (backoff attempt p.baseDelay p.maxDelay).secondUnits shortestDelay.secondUnits)) := by
  rw [delay, delayWith_eq, movedSeconds, jitterRange_not_pos _ h, if_neg Bool.false_ne_true,
    (Duration.seconds_eq _).1, shortestDelay.seconds_eq.1, Binary64.max_finite]

/-- Without jitter any number may be drawn, as none is. -/
theorem mayDraw (h : Binary64.zero.lt p.jitter = false) (attempt : Nat) (draw : Binary64) :
    p.MayDraw attempt draw := by
  intro hrange
  rw [range, jitterRange_not_pos _ h] at hrange
  cases hrange

/-- **Without jitter waits never get shorter.** -/
theorem delay_mono (h : Binary64.zero.lt p.jitter = false) (hab : a ≤ b) :
    (p.delay a draw).nanos ≤ (p.delay b draw').nanos := by
  rw [delay_eq h, delay_eq h]
  exact Duration.saturating_mono (max_le_max (Duration.secondUnits_mono (backoff_mono hab)) le_rfl)

/-- **From attempt 63 on** all waits are the same. -/
theorem delay_of_le (h : Binary64.zero.lt p.jitter = false) (ha : 63 ≤ a) :
    p.delay a draw = p.delay 63 draw' := by
  rw [delay_eq h, delay_eq h, backoff_of_le ha]

end RetryPolicy

/-! ## 5. Runs -/

namespace RetryRun

variable {p : RetryPolicy}

/-- The run after `n` calls to go on, given the numbers that are drawn for them. -/
def after (r : RetryRun) (draws : Nat → Binary64) : Nat → RetryRun
  | 0 => r
  | n + 1 => ((r.after draws n).advance (draws n)).2

/-- The answer to call number `n`. -/
def answer (r : RetryRun) (draws : Nat → Binary64) (n : Nat) : Option Duration :=
  ((r.after draws n).advance (draws n)).1

/-- **The step**: a call counts one attempt if there is one left. -/
theorem advance_resume (p : RetryPolicy) (attempt : Nat) (draw : Binary64) :
    (resume p attempt).advance draw =
      if attempt < p.maxAttempts then (some (p.delay attempt draw), resume p (attempt + 1))
      else (none, resume p attempt) := by
  unfold resume advance
  dsimp only
  by_cases h : attempt < p.maxAttempts
  · rw [if_pos (RetryPolicy.allows_iff.mpr h), if_pos h]
  · rw [if_neg (mt RetryPolicy.allows_iff.mp h), if_neg h]

/-- **The run**: attempts are counted up to the last one that the policy allows. -/
theorem after_resume (p : RetryPolicy) (k : Nat) (draws : Nat → Binary64) (n : Nat) :
    (resume p k).after draws n = resume p (k + min n (p.maxAttempts - k)) := by
  induction n with
  | zero => simp [after]
  | succ n ih =>
    rw [after, ih, advance_resume]
    split_ifs with h
    · rw [show k + min n (p.maxAttempts - k) + 1 = k + min (n + 1) (p.maxAttempts - k) by omega]
    · rw [show min n (p.maxAttempts - k) = min (n + 1) (p.maxAttempts - k) by omega]

/-- The answer to a call: a wait as long as attempts are left. -/
theorem answer_resume (p : RetryPolicy) (k : Nat) (draws : Nat → Binary64) (n : Nat) :
    (resume p k).answer draws n =
      if k + n < p.maxAttempts then some (p.delay (k + n) (draws n)) else none := by
  rw [answer, after_resume, advance_resume]
  split_ifs with h₁ h₂ h₂
  · rw [show k + min n (p.maxAttempts - k) = k + n by omega]
  · omega
  · omega
  · rfl

/-- The waits that a run gives behind `k` attempts. -/
def waits (p : RetryPolicy) (k : Nat) (draws : Nat → Binary64) : List Duration :=
  (List.range (p.maxAttempts - k)).map fun n => p.delay (k + n) (draws n)

theorem length_waits (p : RetryPolicy) (k : Nat) (draws : Nat → Binary64) :
    (waits p k draws).length = p.maxAttempts - k := by
  rw [waits, List.length_map, List.length_range]

/-- Whatever is said of two waits, said of all attempts in their order, holds of a run. -/
theorem pairwise_waits {Related : Duration → Duration → Prop} (p : RetryPolicy) (k : Nat)
    (draws : Nat → Binary64)
    (h : ∀ a b draw draw', a ≤ b → Related (p.delay a draw) (p.delay b draw')) :
    (waits p k draws).Pairwise Related := by
  refine List.pairwise_map.mpr (List.pairwise_lt_range.imp ?_)
  intro i j hlt
  exact h (k + i) (k + j) (draws i) (draws j) (Nat.add_le_add_left (Nat.le_of_lt hlt) k)

/-- A wait of a run is the one of some attempt. -/
theorem exists_of_mem_waits {k : Nat} {draws : Nat → Binary64} {wait : Duration}
    (h : wait ∈ waits p k draws) : ∃ attempt draw, wait = p.delay attempt draw := by
  obtain ⟨n, -, hn⟩ := List.mem_map.mp h
  exact ⟨k + n, draws n, hn.symm⟩

/-- **A run gives its waits and then nothing any more.** -/
theorem answer_eq_getElem? (p : RetryPolicy) (k : Nat) (draws : Nat → Binary64) (n : Nat) :
    (resume p k).answer draws n = (waits p k draws)[n]? := by
  rw [answer_resume, waits, List.getElem?_map]
  split_ifs with h
  · rw [List.getElem?_range (by omega), Option.map_some]
  · rw [List.getElem?_eq_none (by rw [List.length_range]; omega), Option.map_none]

/-- A call is answered with a wait exactly when the policy allows the attempt. -/
theorem isSome_answer (p : RetryPolicy) (k : Nat) (draws : Nat → Binary64) (n : Nat) :
    ((resume p k).answer draws n).isSome = p.allows ((resume p k).after draws n).attempt := by
  have hattempt : ((resume p k).after draws n).attempt = k + min n (p.maxAttempts - k) := by
    rw [after_resume, resume]
  rw [Bool.eq_iff_iff, hattempt, RetryPolicy.allows_iff, answer_resume]
  split_ifs with h
  · simp only [Option.isSome_some, true_iff]
    omega
  · simp only [Option.isSome_none, Bool.false_eq_true, false_iff]
    omega

end RetryRun

/-! ## 6. All settings -/

/-- **Waits are safe, and without jitter they never get shorter.**  Let the settings hold any numbers.
Whatever attempt it is, jitter is drawn between bounds that are finite and in order, and whatever is
drawn, the wait is at least a tenth of a second.  If the settings have no positive jitter, no attempt has
a longer wait than a later one, and from attempt 63 on all waits are the same; a run that goes on
behind `k` attempts then gives one wait for each attempt that is left, none shorter than the one before,
and none behind them, so that it gives a wait exactly when the policy allows the attempt. -/
theorem waits_safe_and_monotone (s : RetrySection) :
    (∀ attempt,
      (Binary64.zero.lt (s.policy.range attempt) = true →
        DrawBounds (s.policy.range attempt).neg (s.policy.range attempt)) ∧
      ∀ draw, s.policy.MayDraw attempt draw →
        shortestDelay.nanos ≤ (s.policy.delay attempt draw).nanos) ∧
    (Binary64.zero.lt s.jitter = false →
      (∀ a b draw draw', a ≤ b →
        (s.policy.delay a draw).nanos ≤ (s.policy.delay b draw').nanos) ∧
      (∀ a b draw draw', 63 ≤ a → 63 ≤ b → s.policy.delay a draw = s.policy.delay b draw') ∧
      ∀ k draws, ∃ waits : List Duration,
        waits.length = s.maxAttempts - k ∧
        waits.Pairwise (fun first second => first.nanos ≤ second.nanos) ∧
        (∀ wait ∈ waits, shortestDelay.nanos ≤ wait.nanos) ∧
        ∀ n, (RetryRun.resume s.policy k).answer draws n = waits[n]? ∧
          ((RetryRun.resume s.policy k).answer draws n).isSome =
            s.policy.allows ((RetryRun.resume s.policy k).after draws n).attempt) := by
  refine ⟨fun attempt => ⟨drawBounds_jitterRange, fun draw => RetryPolicy.shortestDelay_le_delay⟩, ?_⟩
  intro hjitter
  have hnone : Binary64.zero.lt s.policy.jitter = false := s.policy_jitter_not_pos hjitter
  refine ⟨fun a b draw draw' => RetryPolicy.delay_mono hnone, ?_, ?_⟩
  · intro a b draw draw' ha hb
    have hlast : s.policy.delay a draw = s.policy.delay 63 draw := RetryPolicy.delay_of_le hnone ha
    rw [hlast, RetryPolicy.delay_of_le hnone hb]
  · intro k draws
    refine ⟨RetryRun.waits s.policy k draws, RetryRun.length_waits s.policy k draws, ?_, ?_, ?_⟩
    · exact RetryRun.pairwise_waits s.policy k draws fun a b draw draw' => RetryPolicy.delay_mono hnone
    · intro wait hwait
      obtain ⟨attempt, draw, hwait⟩ := RetryRun.exists_of_mem_waits hwait
      rw [hwait]
      exact RetryPolicy.shortestDelay_le_delay (RetryPolicy.mayDraw hnone attempt draw)
    · intro n
      exact ⟨RetryRun.answer_eq_getElem? s.policy k draws n, RetryRun.isSome_answer s.policy k draws n⟩

/-- Settings with a ceiling that no duration reaches, and with a fraction of jitter that may not be a
number. -/
def oddSettings (jitter : Binary64) : RetrySection where
  maxAttempts := 3
  baseDelay := Binary64.ofDecimal false 3 (-1)
  maxDelay := Binary64.ofDecimal false 1 30
  jitter := jitter
  statusCodes := []

/-- A wait that jitter makes as short as it may, and waits without jitter, of which two are left behind
the first attempt. -/
theorem waits_safe_and_monotone_odd :
    let moved := (oddSettings (Binary64.ofDecimal false 5 (-1))).policy
    let draw := Binary64.ofDecimal true 15 (-2)
    let quiet := (oddSettings .nan).policy
    (Binary64.zero.lt (moved.range 0) = true ∧ DrawBounds (moved.range 0).neg (moved.range 0) ∧
      moved.MayDraw 0 draw ∧ shortestDelay.nanos ≤ (moved.delay 0 draw).nanos) ∧
    Binary64.zero.lt (oddSettings .nan).jitter = false ∧
      (quiet.delay 1 .zero).nanos ≤ (quiet.delay 64 .zero).nanos ∧
      quiet.delay 63 .zero = quiet.delay 64 .zero ∧
      ∃ waits : List Duration, waits.length = 2 ∧
        ∀ n, (RetryRun.resume quiet 1).answer (fun _ => .zero) n = waits[n]? := by
  intro moved draw quiet
  have hrange : Binary64.zero.lt (moved.range 0) = true := by decide +kernel
  have hdraw : moved.MayDraw 0 draw := by decide +kernel
  have hquiet : Binary64.zero.lt (oddSettings .nan).jitter = false := by decide
  obtain ⟨hsafe, -⟩ := waits_safe_and_monotone (oddSettings (Binary64.ofDecimal false 5 (-1)))
  obtain ⟨-, hrest⟩ := waits_safe_and_monotone (oddSettings .nan)
  obtain ⟨hmono, hsame, hrun⟩ := hrest hquiet
  obtain ⟨waits, hlength, -, -, hanswer⟩ := hrun 1 fun _ => .zero
  exact ⟨⟨hrange, (hsafe 0).1 hrange, hdraw, (hsafe 0).2 draw hdraw⟩, hquiet, hmono 1 64 _ _ (by decide),
    hsame 63 64 _ _ (by decide) (by decide), waits, hlength, fun n => (hanswer n).1⟩

end Shortlist
