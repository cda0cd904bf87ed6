import Shortlist.Fetch.Task

/-!
# Fetches on a clock

Several fetches run side by side under a clock on which only waiting takes time.  The engine follows
a script: for every URL the answers in their order, each with the time that it takes.  A limited
number of fetches is in flight; the next one starts when one is finished.  A shutdown may be
signalled at a given time, and comes before whatever else happens at that time.
-/

namespace Shortlist.Fetch

open Proxy (Pool)

/-! ## 1. Scripts -/

/-- A scripted answer and the milliseconds that it takes. -/
structure Entry where
  answer : Answer
  latency : Nat := 0

/-- The answer to each call for a URL, counted from 0. -/
abbrev Script := String → Nat → Entry

/-- The answer behind the end of a list of answers. -/
def Entry.beyond : Entry := { answer := .ok { status := 200, body := "ok" } }

/-- The script that follows a list of answers for every URL. -/
def scriptOf (answers : Keyed (List Entry)) : Script := fun url n =>
  (((Keyed.find? url answers).getD [])[n]?).getD Entry.beyond

/-! ## 2. The state of a run -/

/-- A fetch in flight: its place among the requests, where it stands, when it moves on, and the
answer that it will get if it waits for one. -/
structure Flight where
  place : Nat
  phase : Phase
  wake : Nat
  answer : Option Answer

/-- The place and the outcome of a fetch that waits when the shutdown is signalled. -/
def Flight.ended? (f : Flight) : Option (Nat × Outcome) :=
  match f.phase.interrupt with
  | .finished outcome => some (f.place, outcome)
  | _ => none

/-- A call of the engine: when, with which request, and the pool at that time. -/
structure Call where
  time : Nat
  request : Request
  pool : Pool
deriving Repr, DecidableEq

/-- A run of fetches.  Times are in milliseconds. -/
structure Run where
  layer : Layer
  /-- How many fetches may be in flight. -/
  width : Nat
  /-- When a shutdown is going to be signalled, if one is. -/
  shutdown : Option Nat
  /-- Whether a shutdown is signalled by now. -/
  stopped : Bool := false
  now : Nat := 0
  pool : Pool
  script : Script
  /-- The requests that have not started, with their places. -/
  waiting : List (Nat × Request)
  flights : List Flight := []
  /-- The calls so far, the latest first. -/
  calls : List Call := []
  /-- The outcomes so far with the places of their requests. -/
  outcomes : List (Nat × Outcome) := []

namespace Run

/-- The clock ticks in milliseconds: a wait ends at the first tick that is not too early. -/
def tick (d : Duration) : Nat := (d.nanos + 999999) / 1000000

/-- How often the engine was called for a URL. -/
def callsFor (w : Run) (url : String) : Nat := w.calls.countP (·.request.url == url)

/-! ## 3. Moving on -/

/-- Puts a fetch back in flight, or files its outcome. -/
def settle (w : Run) (place : Nat) (phase : Phase) : Run :=
  match phase with
  | .finished outcome => { w with outcomes := w.outcomes ++ [(place, outcome)] }
  | .calling request =>
    let entry := w.script request.url (w.callsFor request.url)
    { w with
      calls := ⟨w.now, request, w.pool⟩ :: w.calls
      flights := w.flights ++ [⟨place, phase, w.now + entry.latency, some entry.answer⟩] }
  | .delayed _ d => { w with flights := w.flights ++ [⟨place, phase, w.now + tick d, none⟩] }
  | .backingOff _ d => { w with flights := w.flights ++ [⟨place, phase, w.now + tick d, none⟩] }
  | .ready _ => { w with flights := w.flights ++ [⟨place, phase, w.now, none⟩] }

/-- Starts the next fetch, if there is one and it may be in flight. -/
def launch? (w : Run) : Option Run :=
  match w.waiting with
  | [] => none
  | (place, request) :: rest =>
    if w.flights.length < max w.width 1 then
      some (({ w with waiting := rest } : Run).settle place (.ready request))
    else none

/-- The earlier of two fetches; of two that move on at the same time the first. -/
def sooner (a b : Flight) : Flight := if b.wake < a.wake then b else a

/-- The fetch that moves on next. -/
def next? (w : Run) : Option Flight :=
  match w.flights with
  | [] => none
  | f :: rest => some (rest.foldl sooner f)

/-- Lets a fetch move on at the time at which it wakes. -/
def advance (w : Run) (f : Flight) : Run :=
  let w := { w with now := f.wake, flights := w.flights.filter (·.place != f.place) }
  let (phase, pool) := match f.answer with
    | some answer => f.phase.receive w.layer {} w.stopped w.pool answer
    | none => f.phase.proceed w.layer {} w.stopped w.pool
  ({ w with pool } : Run).settle f.place phase

/-- Signals the shutdown: all waits end at its time. -/
def interrupt (w : Run) (time : Nat) : Run :=
  { w with
    shutdown := none
    stopped := true
    now := time
    flights := w.flights.filter (·.ended?.isNone)
    outcomes := w.outcomes ++ w.flights.filterMap Flight.ended? }

/-- The next thing that happens, if anything does: a fetch starts, the shutdown is signalled, or a
fetch moves on. -/
def step? (w : Run) : Option Run :=
  match w.launch? with
  | some w => some w
  | none =>
    match w.next? with
    | none => none
    | some f =>
      match w.shutdown.filter (· ≤ f.wake) with
      | some time => some (w.interrupt time)
      | none => some (w.advance f)

/-- Goes on for at most `steps` steps. -/
def runFor : (steps : Nat) → Run → Run
  | 0, w => w
  | steps + 1, w =>
    match w.step? with
    | some w => runFor steps w
    | none => w

/-- More steps than a run can take: a fetch takes at most four for every attempt and two more, and
the shutdown takes one. -/
def enoughSteps (w : Run) : Nat := w.waiting.length * (4 * (w.layer.policy.maxAttempts + 1) + 2) + 1

/-- Runs until all fetches are finished. -/
def finish (w : Run) : Run := runFor w.enoughSteps w

/-- The outcomes in the order of the requests. -/
def results (w : Run) : List (Option Outcome) :=
  (List.range w.outcomes.length).map fun place =>
    (w.outcomes.find? (·.1 == place)).map Prod.snd

end Run

/-! ## 4. Fetching -/

/-- A run that fetches requests, at most `width` of them at a time. -/
def start (layer : Layer) (pool : Pool) (script : Script) (shutdown : Option Nat) (width : Nat)
    (requests : List Request) : Run :=
  { layer, width, shutdown, pool, script,
    waiting := (List.range requests.length).zip requests }

/-- The request for a URL of a batch. -/
def Layer.requestFor (l : Layer) (url : String) : Request := { url, timeout := l.timeout }

end Shortlist.Fetch
