import Shortlist.Captcha
import Shortlist.Fetch.Request
import Shortlist.Headers
import Shortlist.Retry

/-!
# The resilience layer

Between the requests of a caller and an engine that sends them stands a layer that prepares every
request (a browser's headers, a proxy, a delay) and judges every answer: it is passed on, it is a
captcha page, it is worth another attempt, or it is the last word.  The proxy that was used is told
how the request went.
-/

namespace Shortlist.Fetch

open Number (Binary64)
open Proxy (Pool)

/-! ## 1. The layer -/

/-- How a layer works. -/
structure Layer where
  policy : RetryPolicy
  solver : Captcha.Solver := {}
  rotator : Headers.Rotator
  /-- The delay before a request lies between these two. -/
  delayMin : Duration
  delayMax : Duration
  /-- How long a request of a batch may take. -/
  timeout : Duration
deriving Repr, DecidableEq

/-- The random numbers that one step of a layer uses. -/
structure Chance where
  agent : Nat := 0
  proxy : Nat := 0
  delay : Binary64 := Binary64.zero
  jitter : Binary64 := Binary64.zero
deriving Repr, DecidableEq

namespace Layer

/-! ## 2. Preparing a request -/

/-- The delay before a request; `draw` is a random number of seconds between the limits. -/
def pause (l : Layer) (draw : Binary64) : Duration :=
  if l.delayMax.seconds.le l.delayMin.seconds then l.delayMin
  else (Duration.ofBinary64? draw).getD l.delayMax

/-- Gives a request the headers of a browser. -/
def dress (l : Layer) (c : Chance) (r : Request) : Request :=
  { r with headers := Headers.apply (l.rotator.choose c.agent) r.headers }

/-- Prepares a request for being sent.  Without an endpoint that may be used it goes out directly. -/
def prepare (l : Layer) (c : Chance) (pool : Pool) (r : Request) : Request × Pool :=
  let r := l.dress c r
  let delay := if r.dontDelay then none else some (l.pause c.delay)
  if r.dontProxy then ({ r with delay }, pool)
  else
    let (proxy, pool) := pool.select r.country c.proxy
    ({ r with proxy, delay }, pool)

/-! ## 3. Judging an answer -/

/-- What becomes of a response. -/
inductive ResponseAction where
  | pass (response : Response)
  | retry (request : Request) (delay : Duration) (reason : String)
  | blocked (verdict : Captcha.Verdict) (response : Response)
  | giveUp (response : Response) (reason : String)
deriving Repr, DecidableEq

/-- What becomes of an error. -/
inductive ErrorAction where
  | retry (request : Request) (delay : Duration) (reason : String)
  | giveUp (reason : String)
deriving Repr, DecidableEq

/-- The next attempt of a request and the wait before it, if there is an attempt left. -/
def nextAttempt (l : Layer) (c : Chance) (r : Request) : Option (Request × Duration) :=
  match (RetryRun.resume l.policy r.retryCount).advance c.jitter with
  | (none, _) => none
  | (some delay, run) =>
    some (l.dress c { r with retryCount := run.attempt, dontFilter := true, proxy := none }, delay)

/-- What to do with a response to a request. -/
def judgeResponse (l : Layer) (c : Chance) (r : Request) (response : Response) : ResponseAction :=
  let verdict := Captcha.classify response.body
  if verdict.detected then .blocked verdict response
  else if l.policy.retriesStatus response.status then
    let reason := "HTTP " ++ toString response.status
    match l.nextAttempt c r with
    | some (next, delay) => .retry next delay reason
    | none => .giveUp response reason
  else .pass response

/-- What to do with an error of the engine. -/
def judgeError (l : Layer) (c : Chance) (r : Request) (error : EngineError) : ErrorAction :=
  let reason := error.message
  if !error.isNetwork then .giveUp reason
  else
    match l.nextAttempt c r with
    | some (next, delay) => .retry next delay reason
    | none => .giveUp reason

/-! ## 4. Reporting to the pool -/

/-- What the pool is told about an answer: any response is a success of the proxy, any error a
failure.  Nothing is told when there was no proxy. -/
def reportOn (r : Request) (answer : Answer) : Option Pool.Report :=
  r.proxy.map fun lease =>
    match answer with
    | .ok _ => .success lease
    | .error _ => .failure lease

/-- Tells the pool about an answer. -/
def informed (pool : Pool) (r : Request) (answer : Answer) : Pool :=
  match reportOn r answer with
  | some report => pool.take report
  | none => pool

/-- Takes a response to a request. -/
def takeResponse (l : Layer) (c : Chance) (pool : Pool) (r : Request) (response : Response) :
    ResponseAction × Pool :=
  (l.judgeResponse c r response, informed pool r (.ok response))

/-- Takes an error of the engine. -/
def takeError (l : Layer) (c : Chance) (pool : Pool) (r : Request) (error : EngineError) :
    ErrorAction × Pool :=
  (l.judgeError c r error, informed pool r (.error error))

end Layer

end Shortlist.Fetch
