import Mathlib.Data.Nat.Find
import Mathlib.Order.Bounds.Basic
import Shortlist.Proofs.Fetch.Solo

/-!
# How often a fetch calls the engine

A fetch that no shutdown disturbs ends with the first answer that `settles` it, and that answer alone
decides the outcome.  The exits of the loop are spread over the judging of responses, the judging of
errors and the count of attempts; `receive_settles` and `receive_retries` collect them into one
condition and its negation, and from there on nothing looks into the layer any more.

The count that decides travels on the request: it is `k + i` when the answer `i` comes in, where `k`
is the count of the first request.  This is the invariant of the induction in
`Solo.reaches_settled`; the condition contains the ceiling, so a fetch whose `k` is beyond it makes
one call, and no fetch goes on for ever.
-/

namespace Shortlist.Fetch

open Proxy (Pool)

/-! ## 1. The answers that end a fetch -/

namespace Layer

/-- Whether an answer ends a fetch that was tried again `attempt` times: a captcha page, any other
page with a status that is not tried again, an error that is not the network's fault, or anything at
all when no attempt is left. -/
def Settles (l : Layer) (attempt : Nat) (answer : Answer) : Prop :=
  l.policy.maxAttempts ≤ attempt ∨
    match answer with
    | .ok response =>
      (Captcha.classify response.body).detected = true ∨
        l.policy.retriesStatus response.status = false
    | .error error => error.isNetwork = false

/-- The outcome of a fetch that ends with an answer. -/
def outcomeOf (l : Layer) : Answer → Outcome
  | .ok response =>
    if (Captcha.classify response.body).detected then
      .blocked (Captcha.classify response.body) response
    else if l.policy.retriesStatus response.status then
      .failed ("HTTP " ++ toString response.status) (some response)
    else .success response
  | .error error => .failed error.message none

/-- The request of the next attempt. -/
def again (l : Layer) (c : Chance) (r : Request) : Request :=
  l.dress c { r with retryCount := r.retryCount + 1, dontFilter := true, proxy := none }

/-- **There is a next attempt** exactly while the count on the request is below the ceiling. -/
theorem nextAttempt_eq (l : Layer) (c : Chance) (r : Request) :
    l.nextAttempt c r =
      if r.retryCount < l.policy.maxAttempts then
        some (l.again c r, l.policy.delay r.retryCount c.jitter)
      else none := by
  unfold nextAttempt RetryRun.advance RetryRun.resume RetryPolicy.allows
  by_cases h : r.retryCount < l.policy.maxAttempts
  · simp only [h, decide_true, if_true]
    rfl
  · simp only [h, decide_false, if_false]
    rfl

end Layer

namespace Phase

variable {l : Layer} {c : Chance} {stopped : Bool} {pool : Pool} {r : Request} {answer : Answer}

/-- **An answer that settles** ends the fetch with its outcome, whether or not a shutdown is
signalled. -/
theorem receive_settles (h : l.Settles r.retryCount answer) :
    ((Phase.calling r).receive l c stopped pool answer).1 = .finished (l.outcomeOf answer) := by
  cases answer with
  | ok response =>
    simp only [receive, Layer.takeResponse, Layer.judgeResponse, Layer.nextAttempt_eq,
      Layer.outcomeOf]
    by_cases hcaptcha : (Captcha.classify response.body).detected = true
    · simp [hcaptcha, afterResponse]
    · cases hstatus : l.policy.retriesStatus response.status with
      | false => simp [hcaptcha, afterResponse]
      | true =>
        have hlast : ¬ r.retryCount < l.policy.maxAttempts := by
          rcases h with h | h | h
          · omega
          · exact absurd h hcaptcha
          · exact absurd (hstatus.symm.trans h) (by decide)
        simp [hcaptcha, hlast, afterResponse]
  | error error =>
    simp only [receive, Layer.takeError, Layer.judgeError, Layer.nextAttempt_eq, Layer.outcomeOf]
    cases hnetwork : error.isNetwork with
    | false => simp [afterError]
    | true =>
      have hlast : ¬ r.retryCount < l.policy.maxAttempts := by
        rcases h with h | h
        · omega
        · exact absurd (hnetwork.symm.trans h) (by decide)
      simp [hlast, afterError]

/-- **Any other answer** leads to another attempt behind the wait of the policy, unless a shutdown is
signalled. -/
theorem receive_retries (h : ¬ l.Settles r.retryCount answer) :
    ((Phase.calling r).receive l c stopped pool answer).1 =
      unlessStopped stopped (.backingOff (l.again c r) (l.policy.delay r.retryCount c.jitter)) := by
  have hleft : r.retryCount < l.policy.maxAttempts := by
    by_contra hnot
    exact h (Or.inl (by omega))
  cases answer with
  | ok response =>
    have hcaptcha : ¬ (Captcha.classify response.body).detected = true :=
      fun hc => h (Or.inr (Or.inl hc))
    have hstatus : l.policy.retriesStatus response.status = true := by
      by_contra hs
      exact h (Or.inr (Or.inr (by simpa using hs)))
    simp [receive, Layer.takeResponse, Layer.judgeResponse, Layer.nextAttempt_eq, hcaptcha,
      hstatus, hleft, afterResponse]
  | error error =>
    have hnetwork : error.isNetwork = true := by
      by_contra hn
      exact h (Or.inr (by simpa using hn))
    simp [receive, Layer.takeError, Layer.judgeError, Layer.nextAttempt_eq, hnetwork, hleft,
      afterError]

/-- Every answer is reported to the pool, whatever it leads to. -/
@[simp] theorem pool_receive :
    ((Phase.calling r).receive l c stopped pool answer).2 = Layer.informed pool r answer := by
  cases answer <;> rfl

end Phase

/-! ## 2. One attempt -/

/-- What an attempt does: the wait before the request, if there is one, and the call. -/
def Layer.attemptMoves (l : Layer) (w : World) (dontDelay : Bool) (i : Nat) : List Move :=
  (if dontDelay then [] else [.pause (l.pause (w.outgoing i).delay)]) ++ [.call]

/-- What the attempts from number `i` on do when `more` further ones follow it: each waits for the
back-off of the policy before the next one. -/
def Layer.movesFrom (l : Layer) (w : World) (dontDelay : Bool) (k i more : Nat) : List Move :=
  ((List.range' i more).flatMap fun a =>
      l.attemptMoves w dontDelay a ++ [.backOff (l.policy.delay (k + a) (w.incoming a).jitter)]) ++
    l.attemptMoves w dontDelay (i + more)

/-- The first attempt and those behind it. -/
theorem Layer.movesFrom_succ (l : Layer) (w : World) (dontDelay : Bool) (k i more : Nat) :
    l.movesFrom w dontDelay k i (more + 1) =
      l.attemptMoves w dontDelay i ++ .backOff (l.policy.delay (k + i) (w.incoming i).jitter) ::
        l.movesFrom w dontDelay k (i + 1) more := by
  simp only [movesFrom, List.range'_succ, List.flatMap_cons, List.append_assoc, List.cons_append,
    List.nil_append, Nat.add_right_comm i more 1, ← Nat.add_assoc]

namespace Layer

variable (l : Layer) (c : Chance) (pool : Pool) (r : Request)

/-- **Preparing a request** dresses it and sets a wait.  It gets the proxy that the pool selects, unless it
must not go through one. -/
theorem prepare_eq : l.prepare c pool r =
    ({ l.dress c r with
        proxy := if r.dontProxy then r.proxy else (pool.select r.country c.proxy).1
        delay := if r.dontDelay then none else some (l.pause c.delay) },
      if r.dontProxy then pool else (pool.select r.country c.proxy).2) := by
  unfold prepare dress
  by_cases hproxy : r.dontProxy = true
  · simp [hproxy]
  · simp [hproxy]

/-- Preparing a request leaves its count alone. -/
@[simp] theorem retryCount_prepare : (l.prepare c pool r).1.retryCount = r.retryCount := by
  rw [prepare_eq]
  rfl

/-- Preparing a request leaves alone whether it is sent without waiting. -/
@[simp] theorem dontDelay_prepare : (l.prepare c pool r).1.dontDelay = r.dontDelay := by
  rw [prepare_eq]
  rfl

/-- The wait of a prepared request. -/
theorem delay_prepare :
    (l.prepare c pool r).1.delay = if r.dontDelay then none else some (l.pause c.delay) := by
  rw [prepare_eq]

end Layer

namespace Solo

variable {l : Layer} {w : World}

/-- **An attempt**: a fetch that is ready comes to call the engine, with a request that carries the
same count. -/
theorem reaches_calling {s : Solo} {r : Request} (hphase : s.phase = .ready r)
    (hgo : s.stopped = false) :
    ∃ t sent, Reaches l w s t ∧ t.phase = .calling sent ∧ sent.retryCount = r.retryCount ∧
      sent.dontDelay = r.dontDelay ∧ t.stopped = false ∧ t.answered = s.answered ∧
      t.calls = s.calls ++ [sent] ∧
      t.moves = s.moves ++ l.attemptMoves w r.dontDelay s.answered := by
  have hready := step_ready (l := l) (w := w) hphase
  have hdelay := l.delay_prepare (w.outgoing s.answered) s.pool r
  cases hdont : r.dontDelay with
  | true =>
    rw [hdont, if_pos rfl] at hdelay
    refine ⟨_, (l.prepare (w.outgoing s.answered) s.pool r).1, reaches_step s, ?_⟩
    rw [hready]
    simp [Phase.proceed, hgo, hdelay, hdont, Phase.calls, Phase.moves, Layer.attemptMoves]
  | false =>
    rw [hdont, if_neg Bool.false_ne_true] at hdelay
    have hpaused : (step l w s).phase =
        .delayed (l.prepare (w.outgoing s.answered) s.pool r).1
          (l.pause (w.outgoing s.answered).delay) := by
      rw [hready]
      simp [Phase.proceed, hgo, hdelay]
    refine ⟨_, (l.prepare (w.outgoing s.answered) s.pool r).1,
      (reaches_step s).trans (reaches_step _), ?_⟩
    rw [step_delayed hpaused, hready]
    simp [Phase.proceed, hgo, hdelay, hdont, Phase.calls, Phase.moves, Layer.attemptMoves]

/-- **The last answer** finishes the fetch. -/
theorem reaches_finished {s : Solo} {r : Request} (hphase : s.phase = .calling r)
    (hgo : s.stopped = false) (hsettles : l.Settles r.retryCount (w.answer s.answered)) :
    ∃ t, Reaches l w s t ∧ t.phase = .finished (l.outcomeOf (w.answer s.answered)) ∧
      t.calls = s.calls ∧ t.moves = s.moves := by
  refine ⟨_, reaches_step s, ?_⟩
  rw [step_calling hphase, hgo]
  simp [Phase.receive_settles hsettles, Phase.calls, Phase.moves]

/-- **Any other answer** leads to the next attempt behind the wait of the policy. -/
theorem reaches_ready {s : Solo} {r : Request} (hphase : s.phase = .calling r)
    (hgo : s.stopped = false) (hretries : ¬ l.Settles r.retryCount (w.answer s.answered)) :
    ∃ t next, Reaches l w s t ∧ t.phase = .ready next ∧ next.retryCount = r.retryCount + 1 ∧
      next.dontDelay = r.dontDelay ∧ t.stopped = false ∧ t.answered = s.answered + 1 ∧
      t.calls = s.calls ∧
      t.moves =
        s.moves ++ [.backOff (l.policy.delay r.retryCount (w.incoming s.answered).jitter)] := by
  have hstep := step_calling (l := l) (w := w) hphase
  have hbacking : (step l w s).phase = .backingOff (l.again (w.incoming s.answered) r)
      (l.policy.delay r.retryCount (w.incoming s.answered).jitter) := by
    rw [hstep, hgo]
    exact Phase.receive_retries hretries
  refine ⟨_, l.again (w.incoming s.answered) r, (reaches_step s).trans (reaches_step _), ?_⟩
  rw [step_backingOff hbacking, hstep, hgo]
  simp [Phase.receive_retries hretries, Phase.unlessStopped, Phase.calls, Phase.moves, Layer.again,
    Layer.dress]

/-! ## 3. All attempts -/

/-- **The run.**  From an attempt on, a fetch goes on up to the first answer that settles it.  The
induction is on the number of attempts in between; the count on the request is always the count of
the first request and the number of answers. -/
theorem reaches_settled {dontDelay : Bool} {k n : Nat}
    (hlast : l.Settles (k + n) (w.answer n)) :
    ∀ (more : Nat) {s : Solo} {r : Request}, s.phase = .ready r → s.stopped = false →
      r.retryCount = k + s.answered → r.dontDelay = dontDelay → s.answered + more = n →
      (∀ i, s.answered ≤ i → i < n → ¬ l.Settles (k + i) (w.answer i)) →
      ∃ t, Reaches l w s t ∧ t.phase = .finished (l.outcomeOf (w.answer n)) ∧
        t.calls.length = s.calls.length + (more + 1) ∧
        t.moves = s.moves ++ l.movesFrom w dontDelay k s.answered more
  | 0, s, r, hphase, hgo, hcount, hdont, hn, _ => by
    obtain ⟨t, sent, hst, hcalling, hsent, -, htgo, hanswered, hcalls, hmoves⟩ :=
      reaches_calling (l := l) (w := w) hphase hgo
    have hs : s.answered = n := hn
    have hi : t.answered = n := hanswered.trans hs
    have hsettles : l.Settles sent.retryCount (w.answer t.answered) := by
      rw [hsent, hcount, hi, hs]
      exact hlast
    obtain ⟨u, htu, hend, hucalls, humoves⟩ := reaches_finished hcalling htgo hsettles
    refine ⟨u, hst.trans htu, ?_, ?_, ?_⟩
    · rw [hend, hi]
    · rw [hucalls, hcalls, List.length_append, List.length_singleton]
    · rw [humoves, hmoves, hdont]
      simp [Layer.movesFrom]
  | more + 1, s, r, hphase, hgo, hcount, hdont, hn, hbefore => by
    obtain ⟨t, sent, hst, hcalling, hsent, hsentDont, htgo, hanswered, hcalls, hmoves⟩ :=
      reaches_calling (l := l) (w := w) hphase hgo
    have hretries : ¬ l.Settles sent.retryCount (w.answer t.answered) := by
      rw [hsent, hcount, hanswered]
      exact hbefore _ (Nat.le_refl _) (by omega)
    obtain ⟨u, next, htu, hready, hnext, hnextDont, hugo, huanswered, hucalls, humoves⟩ :=
      reaches_ready hcalling htgo hretries
    obtain ⟨v, huv, hend, hvcalls, hvmoves⟩ :=
      reaches_settled hlast more hready hugo (by omega) (by rw [hnextDont, hsentDont, hdont])
        (by omega) (fun i hi => hbefore i (by omega))
    refine ⟨v, (hst.trans htu).trans huv, hend, ?_, ?_⟩
    · rw [hvcalls, hucalls, hcalls, List.length_append, List.length_singleton]
      omega
    · rw [hvmoves, humoves, hmoves, huanswered, hanswered, hsent, hcount, hdont,
        Layer.movesFrom_succ]
      simp

end Solo

/-! ## 4. The outcome -/

open Solo in
/-- **A fetch follows its script up to the first answer that settles it.**  Without a shutdown it
finishes and stays finished, it has called the engine once for that answer and once for every answer
before it, that answer alone decides the outcome, and between two calls it waits for the back-off of
the policy and then for the delay of the request, if it has one. -/
theorem fetch_ends_at_first_settling_answer (l : Layer) (w : World) (pool : Pool) (r : Request) :
    ∃ n, IsLeast {i | l.Settles (r.retryCount + i) (w.answer i)} n ∧
      ∃ steps, ∀ more,
        (run l w (steps + more) (Solo.start pool r)).phase = .finished (l.outcomeOf (w.answer n)) ∧
        (run l w (steps + more) (Solo.start pool r)).calls.length = n + 1 ∧
        (run l w (steps + more) (Solo.start pool r)).moves =
          ((List.range n).flatMap fun i =>
              l.attemptMoves w r.dontDelay i ++
                [.backOff (l.policy.delay (r.retryCount + i) (w.incoming i).jitter)]) ++
            l.attemptMoves w r.dontDelay n := by
  classical
  -- no attempt is left once the count has reached the ceiling
  have hsome : ∃ i, l.Settles (r.retryCount + i) (w.answer i) :=
    ⟨l.policy.maxAttempts, Or.inl (Nat.le_add_left _ _)⟩
  refine ⟨Nat.find hsome, ⟨Nat.find_spec hsome, fun i hi => Nat.find_min' hsome hi⟩, ?_⟩
  obtain ⟨t, hst, hend, hcalls, hmoves⟩ :=
    reaches_settled (w := w) (Nat.find_spec hsome) (Nat.find hsome)
      (s := Solo.start pool r) rfl rfl rfl rfl (Nat.zero_add _)
      (fun i _ hi => Nat.find_min hsome hi)
  obtain ⟨steps, hsteps⟩ := hst.eventually hend
  refine ⟨steps, fun more => ?_⟩
  rw [hsteps]
  refine ⟨hend, ?_, ?_⟩
  · rw [hcalls]
    exact Nat.zero_add _
  · rw [hmoves, Layer.movesFrom, List.range_eq_range']
    simp [Solo.start]

end Shortlist.Fetch
