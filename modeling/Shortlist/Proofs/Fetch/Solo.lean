import Mathlib.Logic.Function.Iterate
import Shortlist.Fetch.Task

/-!
# A fetch by itself

The phases of a fetch, driven by a script: `World` holds the answer to every call of the engine and
the random numbers of every step, and `Solo` is the fetch together with the pool, the signal of a
shutdown, and what it has done so far.  One `step` lets the fetch go on to its next phase; the engine
is called on entering the phase that waits for it.

There is one lemma for the step out of each phase (`step_ready`, `step_delayed`, `step_calling`,
`step_backingOff`); what holds of runs is put together from these with `Reaches.trans`.
-/

namespace Shortlist.Fetch

open Proxy (Pool)

/-! ## 1. A fetch and its surroundings -/

/-- What a fetch meets: the answer to each of its calls, and the random numbers with which each
attempt is prepared and each answer is judged, all counted from 0. -/
structure World where
  answer : Nat → Answer
  outgoing : Nat → Chance
  incoming : Nat → Chance

/-- What a fetch does that takes time. -/
inductive Move where
  | call
  /-- The wait before a request is sent. -/
  | pause (d : Duration)
  /-- The wait before another attempt. -/
  | backOff (d : Duration)
deriving Repr, DecidableEq

/-- A fetch with its surroundings. -/
structure Solo where
  phase : Phase
  pool : Pool
  /-- Whether a shutdown is signalled. -/
  stopped : Bool := false
  /-- How many answers of the engine came in. -/
  answered : Nat := 0
  /-- The requests that the engine was called with, in order. -/
  calls : List Request := []
  /-- Everything done so far, in order. -/
  moves : List Move := []
deriving Repr, DecidableEq

/-- What is done on entering a phase. -/
def Phase.moves : Phase → List Move
  | .delayed _ d => [.pause d]
  | .calling _ => [.call]
  | .backingOff _ d => [.backOff d]
  | _ => []

/-- The request that the engine is called with on entering a phase. -/
def Phase.calls : Phase → List Request
  | .calling request => [request]
  | _ => []

namespace Solo

/-- A fetch that has not begun. -/
def start (pool : Pool) (request : Request) : Solo := { phase := .ready request, pool }

/-- Enters a phase. -/
def enter (s : Solo) (next : Phase × Pool) : Solo :=
  { s with
    phase := next.1
    pool := next.2
    calls := s.calls ++ next.1.calls
    moves := s.moves ++ next.1.moves }

/-- Goes on to the next phase: with the next answer if the engine was called, otherwise when the wait
is over.  A finished fetch stays as it is. -/
def step (l : Layer) (w : World) (s : Solo) : Solo :=
  match s.phase with
  | .finished _ => s
  | .calling request =>
    ({ s with answered := s.answered + 1 } : Solo).enter
      (Phase.receive l (w.incoming s.answered) s.stopped s.pool (w.answer s.answered)
        (.calling request))
  | phase => s.enter (phase.proceed l (w.outgoing s.answered) s.stopped s.pool)

/-- So many steps, one after another. -/
def run (l : Layer) (w : World) (steps : Nat) (s : Solo) : Solo := (step l w)^[steps] s

/-- One state comes out of another one after some steps. -/
def Reaches (l : Layer) (w : World) (s t : Solo) : Prop := ∃ steps, run l w steps s = t

/-! ## 2. What entering a phase changes -/

section Enter

variable (s : Solo) (next : Phase × Pool)

@[simp] theorem phase_enter : (s.enter next).phase = next.1 := rfl

@[simp] theorem pool_enter : (s.enter next).pool = next.2 := rfl

@[simp] theorem stopped_enter : (s.enter next).stopped = s.stopped := rfl

@[simp] theorem answered_enter : (s.enter next).answered = s.answered := rfl

@[simp] theorem calls_enter : (s.enter next).calls = s.calls ++ next.1.calls := rfl

@[simp] theorem moves_enter : (s.enter next).moves = s.moves ++ next.1.moves := rfl

end Enter

/-! ## 3. Steps -/

variable {l : Layer} {w : World}

/-- A step that begins an attempt. -/
theorem step_ready {s : Solo} {request : Request} (h : s.phase = .ready request) :
    step l w s =
      s.enter ((Phase.ready request).proceed l (w.outgoing s.answered) s.stopped s.pool) := by
  unfold step
  rw [h]

/-- A step behind the wait before a request. -/
theorem step_delayed {s : Solo} {request : Request} {d : Duration}
    (h : s.phase = .delayed request d) :
    step l w s = s.enter (.calling request, s.pool) := by
  unfold step
  rw [h]
  rfl

/-- A step that takes an answer. -/
theorem step_calling {s : Solo} {request : Request} (h : s.phase = .calling request) :
    step l w s = ({ s with answered := s.answered + 1 } : Solo).enter
      (Phase.receive l (w.incoming s.answered) s.stopped s.pool (w.answer s.answered)
        (.calling request)) := by
  unfold step
  rw [h]

/-- A step behind the wait before another attempt. -/
theorem step_backingOff {s : Solo} {request : Request} {d : Duration}
    (h : s.phase = .backingOff request d) :
    step l w s = s.enter (.ready request, s.pool) := by
  unfold step
  rw [h]
  rfl

/-- A finished fetch stays as it is. -/
theorem step_finished {s : Solo} {outcome : Outcome} (h : s.phase = .finished outcome) :
    step l w s = s := by
  unfold step
  rw [h]

/-! ## 4. Runs -/

/-- A run goes on where another one ended. -/
theorem run_add (first second : Nat) (s : Solo) :
    run l w (first + second) s = run l w second (run l w first s) := by
  simp only [run, Nat.add_comm first second, Function.iterate_add_apply]

/-- **A finished fetch stays as it is**, however long one waits. -/
theorem run_finished {s : Solo} {outcome : Outcome} (h : s.phase = .finished outcome) :
    ∀ steps, run l w steps s = s
  | 0 => rfl
  | steps + 1 => by
    have hrun : run l w (steps + 1) s = run l w steps (step l w s) := rfl
    rw [hrun, step_finished h]
    exact run_finished h steps

/-- A step reaches its result. -/
theorem reaches_step (s : Solo) : Reaches l w s (step l w s) := ⟨1, rfl⟩

/-- What is reached from a state that is reached is reached. -/
theorem Reaches.trans {s t u : Solo} (hst : Reaches l w s t) (htu : Reaches l w t u) :
    Reaches l w s u := by
  obtain ⟨first, rfl⟩ := hst
  obtain ⟨second, rfl⟩ := htu
  exact ⟨first + second, run_add first second s⟩

/-- **A fetch that can finish does finish**: from some step on it is in the finished state for
ever. -/
theorem Reaches.eventually {s t : Solo} {outcome : Outcome} (hst : Reaches l w s t)
    (ht : t.phase = .finished outcome) : ∃ steps, ∀ more, run l w (steps + more) s = t := by
  obtain ⟨steps, rfl⟩ := hst
  refine ⟨steps, fun more => ?_⟩
  rw [run_add, run_finished ht]

end Solo

end Shortlist.Fetch
