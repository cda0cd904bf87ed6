import Shortlist.Duration
import Shortlist.Number.Decimal

/-!
# Retrying

A policy says how often a request is tried again and how long to wait before.  The wait doubles from
attempt to attempt up to a ceiling, may be spread around that value at random, and is never below a
tenth of a second.
-/

namespace Shortlist

open Number (Binary64)

/-! ## 1. Delays -/

/-- The shortest wait before another attempt. -/
def shortestDelay : Duration := Duration.ofNanos 100000000

/-- The wait before jitter: `base * 2 ^ attempt`, but at most `ceiling`. -/
def backoff (attempt : Nat) (base ceiling : Duration) : Duration :=
  Duration.saturating
    ((base.seconds.mul (Binary64.twoPow (min attempt 63))).min ceiling.seconds)

/-- How far jitter may move a wait, for a fraction of it between 0 and 1. -/
def jitterRange (wait : Duration) (fraction : Binary64) : Binary64 :=
  wait.seconds.mul (fraction.clamp Binary64.zero (Binary64.ofNat 1))

/-- The wait before another attempt.  `draw` is the random number by which jitter moves it; it counts
only if there is jitter. -/
def delayWith (attempt : Nat) (base ceiling : Duration) (fraction draw : Binary64) : Duration :=
  let wait := backoff attempt base ceiling
  let moved :=
    if Binary64.zero.lt (jitterRange wait fraction) then wait.seconds.add draw else wait.seconds
  Duration.saturating (moved.max shortestDelay.seconds)

/-! ## 2. Policies -/

/-- Inserts a number into an increasing list. -/
def insertSorted (n : Nat) : List Nat → List Nat
  | [] => [n]
  | m :: rest =>
    if n < m then n :: m :: rest else if n = m then m :: rest else m :: insertSorted n rest

/-- The numbers of a list in increasing order, each once. -/
def sortedSet (l : List Nat) : List Nat := l.foldr insertSorted []

/-- When and how a request is tried again. -/
structure RetryPolicy where
  maxAttempts : Nat
  baseDelay : Duration
  maxDelay : Duration
  /-- The fraction of a wait by which jitter may move it. -/
  jitter : Binary64
  /-- The status codes after which a request is tried again, in increasing order. -/
  statusCodes : List Nat
deriving Repr, DecidableEq

namespace RetryPolicy

/-- The status codes after which a request is usually tried again. -/
def usualCodes : List Nat := [403, 429, 500, 502, 503, 504]

/-- The usual policy. -/
def standard : RetryPolicy where
  maxAttempts := 3
  baseDelay := Duration.ofSeconds 1
  maxDelay := Duration.ofSeconds 60
  jitter := Binary64.ofDecimal false 5 (-1)
  statusCodes := usualCodes

/-- The policy for sites that are strict about robots. -/
def slow : RetryPolicy :=
  { standard with
    maxAttempts := 5
    baseDelay := Duration.ofSeconds 2
    jitter := Binary64.ofDecimal false 3 (-1) }

/-- Whether there is an attempt left. -/
def allows (p : RetryPolicy) (attempt : Nat) : Bool := attempt < p.maxAttempts

/-- Whether a request is tried again after a status code. -/
def retriesStatus (p : RetryPolicy) (code : Nat) : Bool := p.statusCodes.contains code

/-- The wait before another attempt. -/
def delay (p : RetryPolicy) (attempt : Nat) (draw : Binary64) : Duration :=
  delayWith attempt p.baseDelay p.maxDelay p.jitter draw

end RetryPolicy

/-! ## 3. Runs -/

/-- A request that is being tried: how often it was tried again. -/
structure RetryRun where
  policy : RetryPolicy
  attempt : Nat
deriving Repr, DecidableEq

namespace RetryRun

/-- A run that goes on after some attempts. -/
def resume (p : RetryPolicy) (attempt : Nat) : RetryRun := ⟨p, attempt⟩

/-- A run of a new request. -/
def begin (p : RetryPolicy) : RetryRun := resume p 0

/-- Goes on to the next attempt, if there is one: the wait before it. -/
def advance (r : RetryRun) (draw : Binary64) : Option Duration × RetryRun :=
  if r.policy.allows r.attempt then
    (some (r.policy.delay r.attempt draw), { r with attempt := r.attempt + 1 })
  else (none, r)

end RetryRun

end Shortlist
