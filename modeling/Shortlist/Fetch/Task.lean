import Shortlist.Fetch.Layer

/-!
# A fetch step by step

A fetch prepares its request, waits the request's delay, calls the engine, and either ends with an
outcome or waits before the next attempt.  `Phase` says where a fetch stands; it moves on when a wait
is over (`proceed`), when the engine answers (`receive`), and when a shutdown is signalled during a
wait (`interrupt`).  A fetch that runs into a signalled shutdown between two calls is abandoned.
-/

namespace Shortlist.Fetch

open Proxy (Pool)

/-! ## 1. Outcomes -/

/-- How a fetch ended. -/
inductive Outcome where
  | success (response : Response)
  | blocked (verdict : Captcha.Verdict) (response : Response)
  | failed (reason : String) (response : Option Response)
  | abandoned (reason : String)
deriving Repr, DecidableEq

namespace Outcome

/-- Whether a page came back that can be used. -/
def isSuccess : Outcome → Bool
  | .success _ => true
  | _ => false

/-- The outcome of a fetch that a shutdown ended. -/
def stopped : Outcome := .abandoned "shutdown"

end Outcome

/-! ## 2. Phases -/

/-- Where a fetch stands. -/
inductive Phase where
  /-- The request is about to be prepared. -/
  | ready (request : Request)
  /-- The prepared request waits before it is sent. -/
  | delayed (request : Request) (delay : Duration)
  /-- The engine was called. -/
  | calling (request : Request)
  /-- The next attempt waits. -/
  | backingOff (request : Request) (delay : Duration)
  | finished (outcome : Outcome)
deriving Repr, DecidableEq

namespace Phase

/-- Begins the wait of a phase, unless a shutdown is signalled. -/
def unlessStopped (stopped : Bool) (phase : Phase) : Phase :=
  if stopped then .finished Outcome.stopped else phase

/-- Moves on when nothing is left to wait for. -/
def proceed (l : Layer) (c : Chance) (stopped : Bool) (pool : Pool) : Phase → Phase × Pool
  | .ready request =>
    if stopped then (.finished Outcome.stopped, pool)
    else
      let (request, pool) := l.prepare c pool request
      match request.delay with
      | none => (.calling request, pool)
      | some delay => (.delayed request delay, pool)
  | .delayed request _ => (.calling request, pool)
  | .backingOff request _ => (.ready request, pool)
  | .calling request => (.calling request, pool)
  | .finished outcome => (.finished outcome, pool)

/-- Where a fetch stands after a response. -/
def afterResponse (stopped : Bool) : Layer.ResponseAction → Phase
  | .pass response => .finished (.success response)
  | .blocked verdict response => .finished (.blocked verdict response)
  | .giveUp response reason => .finished (.failed reason (some response))
  | .retry request delay _ => unlessStopped stopped (.backingOff request delay)

/-- Where a fetch stands after an error. -/
def afterError (stopped : Bool) : Layer.ErrorAction → Phase
  | .giveUp reason => .finished (.failed reason none)
  | .retry request delay _ => unlessStopped stopped (.backingOff request delay)

/-- Moves on when the engine answers. -/
def receive (l : Layer) (c : Chance) (stopped : Bool) (pool : Pool) (answer : Answer) :
    Phase → Phase × Pool
  | .calling request =>
    match answer with
    | .ok response =>
      let (action, pool) := l.takeResponse c pool request response
      (afterResponse stopped action, pool)
    | .error error =>
      let (action, pool) := l.takeError c pool request error
      (afterError stopped action, pool)
  | phase => (phase, pool)

/-- What a shutdown does at the moment it is signalled: it ends a wait and leaves a call alone. -/
def interrupt : Phase → Phase
  | .delayed _ _ => .finished Outcome.stopped
  | .backingOff _ _ => .finished Outcome.stopped
  | phase => phase

end Phase

end Shortlist.Fetch
