import Shortlist.Proofs.Fetch.Shutdown
import Shortlist.Proofs.Headers

/-!
# The requests that the engine sees

The request of every call is the caller's request with the count of the attempt, marked as a repetition
from the second attempt on, and with the headers of one browser.  It does not matter what happens to the
fetch in between: other users of the pool may change it at any time, and a shutdown may be signalled at
any time.

The headers are replaced twice between two calls, when another attempt is decided on and when it is
prepared, and by different browsers.  What has to be kept for that is little: a request that waits in
any phase still has the caller's own headers, whatever browser it wears (`Continues`), and preparing it
makes the rest right (`IsAttempt`).  `Solo.Keeps` is the invariant over the phases; it counts the
attempts by the answers that came in.
-/

namespace Shortlist.Fetch

open Keyed (find?)
open Proxy (Pool)

/-! ## 1. Attempts of a request -/

/-- The request goes on for the caller's request as attempt number `i`; which browser it wears is left
open. -/
structure Request.Continues (r origin : Request) (i : Nat) : Prop where
  retryCount : r.retryCount = origin.retryCount + i
  dontFilter : r.dontFilter = true ↔ origin.dontFilter = true ∨ 1 ≤ i
  url : r.url = origin.url
  timeout : r.timeout = origin.timeout
  country : r.country = origin.country
  dontProxy : r.dontProxy = origin.dontProxy
  dontDelay : r.dontDelay = origin.dontDelay
  /-- Headers that belong to no browser are those of the caller, and there are no others. -/
  own : ∀ name, Headers.isManaged name = false →
    find? name r.headers = find? name origin.headers

/-- The request is attempt number `i` of the caller's request, ready for being sent. -/
structure Request.IsAttempt (sent : Request) (l : Layer) (origin : Request) (i : Nat) : Prop
    extends Request.Continues sent origin i where
  /-- The headers of a browser are those that match the user agent, and the user agent itself, which is
  one of the layer's. -/
  browser : ∃ agent ∈ l.rotator.agents, sent.userAgent = some agent ∧
    ∀ name, Headers.isManaged name = true → find? name sent.headers =
      if name = "User-Agent" then some agent else find? name (Headers.matching agent)
  /-- None of them is there in another spelling. -/
  spelling : ∀ name, Headers.isManaged name = true → name ∉ Headers.managed →
    find? name sent.headers = none

variable {l : Layer} {r origin : Request} {i : Nat}

/-- The caller's request goes on for itself. -/
theorem Request.continues_self (r : Request) : r.Continues r 0 where
  retryCount := rfl
  dontFilter := by simp
  url := rfl
  timeout := rfl
  country := rfl
  dontProxy := rfl
  dontDelay := rfl
  own _ _ := rfl

/-- **Another browser** is no other request. -/
theorem Request.Continues.dress (h : r.Continues origin i) (l : Layer) (c : Chance) :
    (l.dress c r).Continues origin i where
  retryCount := h.retryCount
  dontFilter := h.dontFilter
  url := h.url
  timeout := h.timeout
  country := h.country
  dontProxy := h.dontProxy
  dontDelay := h.dontDelay
  own name hname := by
    rw [Layer.dress, Headers.find?_apply, hname]
    exact h.own name hname

/-- **The next attempt** goes on for the caller's request, one further. -/
theorem Request.Continues.again (h : r.Continues origin i) (l : Layer) (c : Chance) :
    (l.again c r).Continues origin (i + 1) := by
  have hnext : ({ r with retryCount := r.retryCount + 1, dontFilter := true, proxy := none } :
      Request).Continues origin (i + 1) :=
    { h with
      retryCount := by rw [h.retryCount, Nat.add_assoc]
      dontFilter := by simp }
  exact hnext.dress l c

/-- **A prepared request** is an attempt of the caller's request, whatever browser it wore before. -/
theorem Request.Continues.prepare (h : r.Continues origin i) (hagents : l.rotator.agents ≠ [])
    (c : Chance) (pool : Pool) : (l.prepare c pool r).1.IsAttempt l origin i := by
  have hdressed := h.dress l c
  have hfind : ∀ name, Headers.isManaged name = true → find? name (l.prepare c pool r).1.headers =
      find? name (Headers.full (l.rotator.choose c.agent)) := by
    intro name hname
    rw [l.prepare_eq]
    simp only [Layer.dress, Headers.find?_apply, hname, if_true]
  refine ⟨?_, ⟨l.rotator.choose c.agent, l.rotator.choose_mem hagents _, ?_, ?_⟩, ?_⟩
  · rw [l.prepare_eq]
    exact { hdressed with }
  · have hagent : Headers.isManaged "User-Agent" = true :=
      Headers.isManaged_of_mem (by simp [Headers.managed])
    rw [userAgent, hfind _ hagent, Headers.find?_full, if_pos rfl]
  · intro name hname
    rw [hfind name hname, Headers.find?_full]
  · intro name hname hspelling
    rw [hfind name hname, Headers.find?_full_of_not_mem hspelling]

/-! ## 2. What a fetch carries through its phases -/

/-- The request of a phase goes on for the caller's request as attempt number `i`, and is ready for being
sent once it was prepared. -/
def Phase.Carries (l : Layer) (origin : Request) (i : Nat) : Phase → Prop
  | .ready r => r.Continues origin i
  | .delayed r _ => r.IsAttempt l origin i
  | .calling r => r.IsAttempt l origin i
  | .backingOff r _ => r.Continues origin i
  | .finished _ => True

/-- A shutdown ends a wait and changes no request. -/
theorem Phase.Carries.interrupt {phase : Phase} (h : phase.Carries l origin i) :
    phase.interrupt.Carries l origin i := by
  cases phase with
  | ready r => exact h
  | delayed r d => trivial
  | calling r => exact h
  | backingOff r d => trivial
  | finished outcome => trivial

/-- A shutdown leaves a call in flight alone. -/
theorem Phase.calls_interrupt (phase : Phase) : phase.interrupt.calls = phase.calls := by
  cases phase <;> rfl

/-- Something that happens to a fetch. -/
inductive Solo.Event where
  /-- The fetch goes on to its next phase. -/
  | step
  /-- A shutdown is signalled. -/
  | signal
  /-- Others use the pool, and leave it like this. -/
  | use (pool : Pool)

namespace Solo

/-- The fetch after an event. -/
def after (l : Layer) (w : World) (s : Solo) : Event → Solo
  | .step => s.step l w
  | .signal => s.signal
  | .use pool => { s with pool }

/-- The fetch after several events. -/
def afterAll (l : Layer) (w : World) (s : Solo) (events : List Event) : Solo :=
  events.foldl (after l w) s

/-- The engine was called once for each answer and for a call in flight, each time with the attempt of
that number, and the phase carries the attempt that is next. -/
structure Keeps (l : Layer) (origin : Request) (s : Solo) : Prop where
  phase : s.phase.Carries l origin s.answered
  count : s.calls.length = s.answered + s.phase.calls.length
  calls : ∀ (i : Nat) (sent : Request), s.calls[i]? = some sent → sent.IsAttempt l origin i

variable {w : World} {s : Solo}

theorem keeps_start (l : Layer) (pool : Pool) (r : Request) : (start pool r).Keeps l r where
  phase := r.continues_self
  count := rfl
  calls i sent h := by simp [start] at h

/-- **Entering a phase**: if no call was in flight, the call that is begun is the next one. -/
theorem Keeps.enter
    (h : ∀ (i : Nat) (sent : Request), s.calls[i]? = some sent → sent.IsAttempt l origin i)
    (hcount : s.calls.length = s.answered) {next : Phase × Pool}
    (hnext : next.1.Carries l origin s.answered) : (s.enter next).Keeps l origin where
  phase := hnext
  count := by rw [calls_enter, List.length_append, hcount, answered_enter, phase_enter]
  calls i sent hsent := by
    rw [calls_enter, List.getElem?_append] at hsent
    split at hsent
    · exact h i sent hsent
    · rename_i hlast
      cases hphase : next.1 with
      | calling r =>
        rw [hphase] at hsent hnext
        obtain ⟨hlt, hget⟩ := List.getElem?_eq_some_iff.mp hsent
        rw [Phase.calls, List.length_singleton] at hlt
        have hi : i = s.answered := by omega
        have hattempt : r.IsAttempt l origin s.answered := hnext
        rw [hi, ← hget]
        simpa [Phase.calls] using hattempt
      | ready r => simp [hphase, Phase.calls] at hsent
      | delayed r d => simp [hphase, Phase.calls] at hsent
      | backingOff r d => simp [hphase, Phase.calls] at hsent
      | finished outcome => simp [hphase, Phase.calls] at hsent

/-- **The step.** -/
theorem Keeps.step (h : s.Keeps l origin) (hagents : l.rotator.agents ≠ []) :
    (s.step l w).Keeps l origin := by
  obtain ⟨hcarries, hcount, hcalls⟩ := h
  cases hphase : s.phase with
  | ready r =>
    rw [hphase] at hcarries hcount
    rw [step_ready hphase]
    refine .enter hcalls hcount ?_
    have hprepared := hcarries.prepare hagents (w.outgoing s.answered) s.pool
    rw [Phase.proceed]
    split
    · trivial
    · cases hdelay : (l.prepare (w.outgoing s.answered) s.pool r).1.delay with
      | none =>
        simp only [hdelay]
        exact hprepared
      | some d =>
        simp only [hdelay]
        exact hprepared
  | delayed r d =>
    rw [hphase] at hcarries hcount
    rw [step_delayed hphase]
    exact .enter hcalls hcount hcarries
  | calling r =>
    rw [hphase] at hcarries hcount
    rw [step_calling hphase]
    refine Keeps.enter (s := { s with answered := s.answered + 1 }) hcalls hcount ?_
    by_cases hsettles : l.Settles r.retryCount (w.answer s.answered)
    · rw [Phase.receive_settles hsettles]
      trivial
    · have hnext := hcarries.toContinues.again l (w.incoming s.answered)
      rw [Phase.receive_retries hsettles, Phase.unlessStopped]
      split
      · trivial
      · exact hnext
  | backingOff r d =>
    rw [hphase] at hcarries hcount
    rw [step_backingOff hphase]
    exact .enter hcalls hcount hcarries
  | finished outcome =>
    rw [step_finished hphase]
    exact ⟨hphase ▸ hcarries, hcount, hcalls⟩

/-- A signal begins no call, and a request that waits is given up. -/
theorem Keeps.signal (h : s.Keeps l origin) : s.signal.Keeps l origin where
  phase := h.phase.interrupt
  count := by
    rw [Solo.signal, s.phase.calls_interrupt]
    exact h.count
  calls := h.calls

/-- Any event. -/
theorem Keeps.after (h : s.Keeps l origin) (hagents : l.rotator.agents ≠ []) (event : Event) :
    (s.after l w event).Keeps l origin := by
  cases event with
  | step => exact h.step hagents
  | signal => exact h.signal
  | use pool => exact ⟨h.phase, h.count, h.calls⟩

/-- **The run.** -/
theorem Keeps.afterAll (h : s.Keeps l origin) (hagents : l.rotator.agents ≠ []) (events : List Event) :
    (s.afterAll l w events).Keeps l origin := by
  induction events generalizing s with
  | nil => exact h
  | cons event events ih => exact ih (h.after hagents event)

end Solo

/-! ## 3. The requests of all calls -/

/-- The layer with a choice among these user agents, or among the built-in ones if there are none. -/
def Layer.withAgents (l : Layer) (agents : List String) : Layer :=
  { l with rotator := .ofList agents }

/-- **Every call is made with an attempt of the caller's request.**  Whatever the engine answers, whatever
others do with the pool, and whenever a shutdown is signalled: the request of call number `i`, counted
from 0, has a count that is `i` above the caller's, repeats an earlier one from the second call on, and
is otherwise the caller's request with the headers of a single browser. -/
theorem calls_are_attempts (l : Layer) (agents : List String) (w : World) (pool : Pool)
    (origin : Request) (events : List Solo.Event) {i : Nat} {sent : Request}
    (h : ((Solo.start pool origin).afterAll (l.withAgents agents) w events).calls[i]? = some sent) :
    sent.IsAttempt (l.withAgents agents) origin i := by
  have hagents : (l.withAgents agents).rotator.agents ≠ [] := Headers.Rotator.ofList_ne_nil agents
  exact ((Solo.keeps_start _ pool origin).afterAll hagents events).calls i sent h

/-- A page that is tried again: the second request looks like another browser, which sends no hints, and
neither the hint that the caller wrote in small letters nor those of the first attempt are left. -/
theorem calls_are_attempts_two_browsers :
    let l : Layer :=
      { policy := ⟨3, .zero, .zero, .zero, [503]⟩, rotator := ⟨[]⟩, delayMin := .zero,
        delayMax := .zero, timeout := .zero }
    let agents := ["Chrome/121 (Windows)", "Firefox/122"]
    let w : World :=
      { answer := fun i => .ok ⟨if i = 0 then 503 else 200, ""⟩
        outgoing := fun i => { agent := i }
        incoming := fun i => { agent := i } }
    let origin : Request :=
      { url := "a", headers := [("Referer", "b"), ("sec-ch-ua", "old")], retryCount := 1 }
    let events : List Solo.Event :=
      [.step, .step, .use (Pool.new 1 .random), .step, .step, .step, .step]
    let calls := ((Solo.start (Pool.new 3 .random) origin).afterAll (l.withAgents agents) w events).calls
    ∃ first second, calls[0]? = some first ∧ calls[1]? = some second ∧
      (first.IsAttempt (l.withAgents agents) origin 0 ∧ first.retryCount = 1 ∧
        find? "Sec-CH-UA-Platform" first.headers = some "\"Windows\"") ∧
      (second.IsAttempt (l.withAgents agents) origin 1 ∧ second.retryCount = 2 ∧
        second.headers.map Prod.fst =
          ["Accept", "Accept-Language", "DNT", "Referer", "Upgrade-Insecure-Requests", "User-Agent"]) := by
  intro l agents w origin events calls
  have hfirst : ∃ first, calls[0]? = some first := Option.isSome_iff_exists.mp (by decide +kernel)
  have hsecond : ∃ second, calls[1]? = some second := Option.isSome_iff_exists.mp (by decide +kernel)
  obtain ⟨first, hfirst⟩ := hfirst
  obtain ⟨second, hsecond⟩ := hsecond
  have hattempt := calls_are_attempts l agents w (Pool.new 3 .random) origin events hfirst
  have hagain := calls_are_attempts l agents w (Pool.new 3 .random) origin events hsecond
  refine ⟨first, second, hfirst, hsecond, ⟨hattempt, hattempt.retryCount, ?_⟩, hagain,
    hagain.retryCount, ?_⟩
  · have hget : calls[0]?.bind (find? "Sec-CH-UA-Platform" ·.headers) = some "\"Windows\"" := by
      decide +kernel
    rw [hfirst] at hget
    exact hget
  · have hget : calls[1]?.map (·.headers.map Prod.fst) =
        some ["Accept", "Accept-Language", "DNT", "Referer", "Upgrade-Insecure-Requests",
          "User-Agent"] := by
      decide +kernel
    rw [hsecond] at hget
    exact Option.some.inj hget

end Shortlist.Fetch
