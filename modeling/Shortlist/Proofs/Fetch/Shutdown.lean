import Shortlist.Proofs.Fetch.Attempts

/-!
# A shutdown during a fetch

A shutdown is signalled at one point of a fetch and stays signalled.  It is looked at in three
places: when an attempt begins, during both waits, and before the wait for another attempt begins.
Between a signal and the next call of the engine there is always one of them, whatever the fetch was
doing; so the fetch is finished one step after the signal (`step_signal_waiting`,
`step_signal_calling`), and what holds after that step holds for ever.

A call in flight is not given up.  Its answer is taken as it would be without the shutdown, and only
the wait for another attempt is not begun.
-/

namespace Shortlist.Fetch

open Proxy (Pool)

/-- **No answer abandons a fetch**: an outcome that an answer decides is a success, a captcha page or
a failure. -/
theorem Layer.outcomeOf_ne_abandoned (l : Layer) (answer : Answer) (reason : String) :
    l.outcomeOf answer ≠ .abandoned reason := by
  cases answer with
  | error error => simp [outcomeOf]
  | ok response =>
    simp only [outcomeOf]
    split_ifs <;> simp

/-- What the pool is told about an answer, case by case. -/
theorem Layer.informed_eq_take (pool : Pool) (r : Request) (answer : Answer) :
    informed pool r answer =
      match r.proxy, answer with
      | some lease, .ok _ => pool.take (.success lease)
      | some lease, .error _ => pool.take (.failure lease)
      | none, _ => pool := by
  unfold informed reportOn
  cases r.proxy with
  | none => rfl
  | some lease => cases answer <;> rfl

namespace Solo

variable {l : Layer} {w : World} {s : Solo} {sent : Request}

/-! ## 1. The signal -/

/-- Signals a shutdown. -/
def signal (s : Solo) : Solo := { s with stopped := true, phase := s.phase.interrupt }

/-- Whether a fetch is between two calls of the engine, or before its first one. -/
def Waiting (s : Solo) : Prop :=
  (∀ sent, s.phase ≠ .calling sent) ∧ ∀ outcome, s.phase ≠ .finished outcome

/-- **Without a call in flight**, the step after the signal ends the fetch and does nothing else. -/
theorem step_signal_waiting (h : s.Waiting) :
    (step l w s.signal).phase = .finished .stopped ∧ (step l w s.signal).pool = s.pool ∧
      (step l w s.signal).moves = s.moves ∧ (step l w s.signal).calls = s.calls := by
  cases hphase : s.phase with
  | ready request =>
    have hready : s.signal.phase = .ready request := by simp [signal, hphase, Phase.interrupt]
    rw [step_ready hready]
    simp [signal, Phase.proceed, Phase.moves, Phase.calls]
  | delayed request delay =>
    have hended : s.signal.phase = .finished .stopped := by simp [signal, hphase, Phase.interrupt]
    rw [step_finished hended]
    exact ⟨hended, rfl, rfl, rfl⟩
  | backingOff request delay =>
    have hended : s.signal.phase = .finished .stopped := by simp [signal, hphase, Phase.interrupt]
    rw [step_finished hended]
    exact ⟨hended, rfl, rfl, rfl⟩
  | calling sent => exact absurd hphase (h.1 sent)
  | finished outcome => exact absurd hphase (h.2 outcome)

/-- **With a call in flight**, the step after the signal takes the answer. -/
theorem step_signal_calling (h : s.phase = .calling sent) :
    step l w s.signal = ({ s.signal with answered := s.answered + 1 } : Solo).enter
      (Phase.receive l (w.incoming s.answered) true s.pool (w.answer s.answered)
        (.calling sent)) := by
  have hcalling : s.signal.phase = .calling sent := by simp [signal, h, Phase.interrupt]
  rw [step_calling hcalling]
  rfl

/-- The outcome of a fetch that is signalled during a call. -/
theorem phase_step_signal_calling (h : s.phase = .calling sent) :
    (l.Settles sent.retryCount (w.answer s.answered) →
      (step l w s.signal).phase = .finished (l.outcomeOf (w.answer s.answered))) ∧
    (¬ l.Settles sent.retryCount (w.answer s.answered) →
      (step l w s.signal).phase = .finished .stopped) := by
  rw [step_signal_calling h]
  exact ⟨fun hsettles => Phase.receive_settles hsettles,
    fun hretries => by simp [Phase.receive_retries hretries, Phase.unlessStopped]⟩

/-- **The step after the signal ends the fetch**, and it does not call the engine or begin a wait. -/
theorem step_signal (l : Layer) (w : World) (s : Solo) :
    (∃ outcome, (step l w s.signal).phase = .finished outcome) ∧
      (step l w s.signal).moves = s.moves ∧ (step l w s.signal).calls = s.calls := by
  by_cases hwaiting : s.Waiting
  · obtain ⟨hended, -, hmoves, hcalls⟩ := step_signal_waiting (l := l) (w := w) hwaiting
    exact ⟨⟨_, hended⟩, hmoves, hcalls⟩
  cases hphase : s.phase with
  | calling sent =>
    obtain ⟨hsettles, hretries⟩ := phase_step_signal_calling (l := l) (w := w) hphase
    have hended : ∃ outcome, (step l w s.signal).phase = .finished outcome := by
      by_cases h : l.Settles sent.retryCount (w.answer s.answered)
      · exact ⟨_, hsettles h⟩
      · exact ⟨_, hretries h⟩
    refine ⟨hended, ?_⟩
    rw [step_signal_calling hphase] at hended ⊢
    obtain ⟨outcome, hended⟩ := hended
    rw [phase_enter] at hended
    simp [hended, Phase.moves, Phase.calls, signal]
  | finished outcome =>
    have hended : s.signal.phase = .finished outcome := by simp [signal, hphase, Phase.interrupt]
    rw [step_finished hended]
    exact ⟨⟨outcome, hended⟩, rfl, rfl⟩
  | ready request => exact absurd ⟨by simp [hphase], by simp [hphase]⟩ hwaiting
  | delayed request delay => exact absurd ⟨by simp [hphase], by simp [hphase]⟩ hwaiting
  | backingOff request delay => exact absurd ⟨by simp [hphase], by simp [hphase]⟩ hwaiting

/-- Everything that comes after the signal comes with its first step. -/
theorem run_signal (l : Layer) (w : World) (s : Solo) (more : Nat) :
    run l w (1 + more) s.signal = step l w s.signal := by
  obtain ⟨⟨outcome, hended⟩, -, -⟩ := step_signal l w s
  rw [run_add]
  exact run_finished hended more

/-! ## 2. What a signal leads to -/

/-- How a fetch that stands at `s` ends when a shutdown is signalled there. -/
structure Heeds (l : Layer) (w : World) (s : Solo) : Prop where
  /-- The engine is not called again, and no wait begins. -/
  quiet : ∀ more, (run l w more s.signal).calls = s.calls ∧ (run l w more s.signal).moves = s.moves
  /-- A fetch that was finished keeps its outcome. -/
  finished : ∀ outcome, s.phase = .finished outcome →
    ∀ more, (run l w more s.signal).phase = .finished outcome
  /-- Without a call in flight the fetch is abandoned, and the pool is left alone. -/
  waiting : s.Waiting →
    ∀ more, (run l w (1 + more) s.signal).phase = .finished .stopped ∧
      (run l w (1 + more) s.signal).pool = s.pool
  /-- The answer to a call in flight is reported to the pool: a response is a success of the lease that
  the request carries, an error a failure of it, and without a lease nothing is reported. -/
  reported : ∀ sent, s.phase = .calling sent →
    ∀ more, (run l w (1 + more) s.signal).pool =
      match sent.proxy, w.answer s.answered with
      | some lease, .ok _ => s.pool.take (.success lease)
      | some lease, .error _ => s.pool.take (.failure lease)
      | none, _ => s.pool
  /-- If it would have ended the fetch, with or without a shutdown, it decides the outcome. -/
  settled : ∀ sent, s.phase = .calling sent → l.Settles sent.retryCount (w.answer s.answered) →
    (step l w s).phase = .finished (l.outcomeOf (w.answer s.answered)) ∧
    ∀ more, (run l w (1 + more) s.signal).phase = .finished (l.outcomeOf (w.answer s.answered))
  /-- If it would have led to another attempt, the fetch is abandoned. -/
  retried : ∀ sent, s.phase = .calling sent → ¬ l.Settles sent.retryCount (w.answer s.answered) →
    (∃ next delay, (step l w s).phase = .backingOff next delay) ∧
    ∀ more, (run l w (1 + more) s.signal).phase = .finished .stopped

/-- **Every point of a fetch** that is not signalled yet. -/
theorem heeds (l : Layer) (w : World) {s : Solo} (hgo : s.stopped = false) : Heeds l w s where
  quiet more := by
    cases more with
    | zero => exact ⟨rfl, rfl⟩
    | succ more =>
      rw [Nat.add_comm, run_signal]
      exact ⟨(step_signal l w s).2.2, (step_signal l w s).2.1⟩
  finished outcome hphase more := by
    have hended : s.signal.phase = .finished outcome := by simp [signal, hphase, Phase.interrupt]
    rw [run_finished hended]
    exact hended
  waiting hwaiting more := by
    rw [run_signal]
    obtain ⟨hended, hpool, -, -⟩ := step_signal_waiting (l := l) (w := w) hwaiting
    exact ⟨hended, hpool⟩
  reported sent hphase more := by
    rw [run_signal, step_signal_calling hphase, pool_enter, Phase.pool_receive, Layer.informed_eq_take]
  settled sent hphase hsettles := by
    refine ⟨?_, fun more => ?_⟩
    · rw [step_calling hphase]
      exact Phase.receive_settles hsettles
    · rw [run_signal]
      exact (phase_step_signal_calling hphase).1 hsettles
  retried sent hphase hretries := by
    refine ⟨⟨l.again (w.incoming s.answered) sent,
      l.policy.delay sent.retryCount (w.incoming s.answered).jitter, ?_⟩, fun more => ?_⟩
    · rw [step_calling hphase, hgo]
      exact Phase.receive_retries hretries
    · rw [run_signal]
      exact (phase_step_signal_calling hphase).2 hretries

/-- A run does not signal a shutdown by itself. -/
@[simp] theorem stopped_step (l : Layer) (w : World) (s : Solo) :
    (step l w s).stopped = s.stopped := by
  unfold step
  split <;> rfl

/-- A run does not signal a shutdown by itself. -/
theorem stopped_run (l : Layer) (w : World) : ∀ (steps : Nat) (s : Solo),
    (run l w steps s).stopped = s.stopped
  | 0, _ => rfl
  | steps + 1, s => (stopped_run l w steps (step l w s)).trans (stopped_step l w s)

end Solo

/-- **A fetch heeds a shutdown** that is signalled after any number of its steps: before it starts,
during a wait before a request, during a call of the engine, or during the wait for another attempt.
No call follows; a call in flight still counts, and its answer either decides the outcome, which is
then not an abandonment, or leads to an abandonment instead of another attempt. -/
theorem shutdown_stops_calls (l : Layer) (w : World) (pool : Pool) (r : Request) (steps : Nat) :
    Solo.Heeds l w (Solo.run l w steps (Solo.start pool r)) ∧
      ∀ answer reason, l.outcomeOf answer ≠ .abandoned reason :=
  ⟨Solo.heeds l w (Solo.stopped_run l w steps _), l.outcomeOf_ne_abandoned⟩

end Shortlist.Fetch
