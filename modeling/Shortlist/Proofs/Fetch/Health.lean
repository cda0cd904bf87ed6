import Shortlist.Proofs.Fetch.Crew

/-!
# What the pool hears about calls

However the actions of a crew are interleaved, its pool is the one that comes out of one report for
every completed call that carried a lease, in the order of completion, and of the selections in
between; `usesIn` reads these off the record of the run.  The pool laws then say what its counters
are.

Three facts have to be carried along for that.  A request on its way carries what it got when it was
prepared (`Member.Recorded`), so its lease was handed out before it is reported on.  A request that
waits for its next attempt carries no lease.  And no call is lost or counted twice: what is in flight
and what is completed make up the calls (`Turn.Legal.calls`).
-/

namespace Shortlist.Fetch

open Proxy (Pool Lease)

/-! ## 1. The calls through one endpoint -/

/-- How many of these calls failed behind the last one that was answered. -/
def failedInARow (xs : List Exchange) : Nat := (xs.reverse.takeWhile Exchange.failed).length

/-- What is reported on an endpoint about a call. -/
theorem failed_reportsOn_report (id : Nat) (x : Exchange) :
    (Proxy.reportsOn id (x.report.map Proxy.Step.report).toList).map Pool.Report.failed =
      ([x].filter (Exchange.isThrough id)).map Exchange.failed := by
  obtain ⟨request, answer⟩ := x
  cases hlease : request.proxy with
  | none => simp [Exchange.report, Exchange.isThrough, hlease, Proxy.reportsOn]
  | some lease =>
    by_cases hid : lease.id = id <;> cases answer <;>
      simp [Exchange.report, Exchange.isThrough, Exchange.failed, hlease, hid, Proxy.reportsOn,
        Pool.Report.lease, Pool.Report.failed]

/-- The reports on an endpoint are those on the calls through it. -/
theorem failed_reportsOn (id : Nat) : ∀ log : List Happening,
    (Proxy.reportsOn id (usesIn log)).map Pool.Report.failed =
      ((completedIn log).filter (Exchange.isThrough id)).map Exchange.failed
  | [] => rfl
  | .prepared request draw :: log => by
    rw [completedIn_prepared, ← failed_reportsOn id log, usesIn_prepared]
    by_cases hproxy : request.dontProxy = true <;> simp [hproxy, Proxy.reportsOn]
  | .called request :: log => failed_reportsOn id log
  | .completed x :: log => by
    have happend : ∀ first second : List Proxy.Step, Proxy.reportsOn id (first ++ second) =
        Proxy.reportsOn id first ++ Proxy.reportsOn id second :=
      fun _ _ => List.filterMap_append
    rw [usesIn_completed, happend, List.map_append, failed_reportsOn_report,
      failed_reportsOn id log, completedIn_completed, ← List.map_append, ← List.filter_append,
      List.singleton_append]

/-- The failures in a row that were reported are the calls in a row that failed. -/
theorem failuresInARow_reportsOn (id : Nat) (endpoints : List Proxy.Endpoint)
    (log : List Happening) :
    Proxy.failuresInARow (Proxy.reportsOn id (endpoints.map .add ++ usesIn log)) =
      failedInARow ((completedIn log).filter (Exchange.isThrough id)) := by
  have hadds : Proxy.reportsOn id (endpoints.map .add ++ usesIn log) =
      Proxy.reportsOn id (usesIn log) := by
    simp [Proxy.reportsOn, List.filterMap_append, List.filterMap_map]
  have hcount : ∀ rs : List Pool.Report,
      Proxy.failuresInARow rs = ((rs.map Pool.Report.failed).reverse.takeWhile (· = true)).length := by
    intro rs
    rw [Proxy.failuresInARow, ← List.map_reverse, List.takeWhile_map, List.length_map]
    simp [Function.comp_def]
  rw [hadds, hcount, failed_reportsOn, failedInARow, ← List.map_reverse, List.takeWhile_map,
    List.length_map]
  simp [Function.comp_def]

/-! ## 2. What an action preserves -/

/-- What a fetch carries is on record: a request on its way was prepared as it is, and one whose next
attempt has not begun carries no lease. -/
def Member.Recorded (log : List Happening) (m : Member) : Prop :=
  match m.phase with
  | .ready r => r.proxy = none
  | .backingOff r _ => r.proxy = none
  | .delayed sent _ => ∃ draw, .prepared sent draw ∈ log
  | .calling sent => ∃ draw, .prepared sent draw ∈ log
  | .finished _ => True

/-- What is on record stays on record. -/
theorem Member.Recorded.append {log : List Happening} {m : Member} (h : m.Recorded log)
    (more : List Happening) : m.Recorded (log ++ more) := by
  unfold Recorded at h ⊢
  cases hphase : m.phase <;> simp only [hphase] at h ⊢
  · exact h
  · exact h.imp fun _ => List.mem_append_left more
  · exact h.imp fun _ => List.mem_append_left more
  · exact h

/-- A lease that a recorded request carries was handed out. -/
theorem mem_leasesIn {log : List Happening} {sent : Request} {lease : Lease} {draw : Nat}
    (h : .prepared sent draw ∈ log) (hlease : sent.proxy = some lease) : lease ∈ leasesIn log :=
  List.mem_filterMap.mpr ⟨_, h, hlease⟩

/-- Preparing a request uses the pool as the record says. -/
theorem pool_prepare_eq (l : Layer) (c : Chance) (pool : Pool) (r : Request) :
    (l.prepare c pool r).2 = pool.afterAll (usesIn [.prepared (l.prepare c pool r).1 c.proxy]) := by
  obtain ⟨-, hcountry, hdont⟩ := l.destination_prepare c pool r
  rw [l.pool_prepare]
  by_cases hproxy : r.dontProxy = true <;> simp [hcountry, hdont, hproxy, Pool.afterAll]

/-- Telling the pool about an answer is the report that the call owes, if it owes one. -/
theorem informed_eq (pool : Pool) (sent : Request) (a : Answer) :
    Layer.informed pool sent a = pool.afterAll (usesIn [.completed ⟨sent, a⟩]) := by
  unfold Layer.informed Layer.reportOn
  cases hlease : sent.proxy <;> cases a <;>
    simp [Exchange.report, hlease, Pool.afterAll, Pool.after]

/-- The history goes on when a request is prepared: the lease that it gets is the one handed out. -/
theorem follows_prepare {threshold : Nat} {adds : List Proxy.Step} {log : List Happening} {pool : Pool}
    (hpool : pool.Follows (leasesIn log) threshold (adds ++ usesIn log)) (l : Layer) (c : Chance)
    {r : Request} (hr : r.proxy = none) :
    (l.prepare c pool r).2.Follows (leasesIn log ++ (l.prepare c pool r).1.proxy.toList) threshold
      (adds ++ (usesIn log ++ usesIn [.prepared (l.prepare c pool r).1 c.proxy])) := by
  obtain ⟨-, hcountry, hdont⟩ := l.destination_prepare c pool r
  rw [l.pool_prepare, l.proxy_prepare, ← List.append_assoc, usesIn_prepared, hcountry, hdont]
  by_cases hproxy : r.dontProxy = true
  · simpa [hproxy, hr] using hpool
  · simp only [hproxy, Bool.false_eq_true, if_false, usesIn_nil, List.append_nil]
    exact hpool.select r.country c.proxy

/-- The history goes on when the pool is told about an answer: the report is on a lease on record. -/
theorem follows_informed {threshold : Nat} {adds : List Proxy.Step} {log : List Happening}
    {pool : Pool} (hpool : pool.Follows (leasesIn log) threshold (adds ++ usesIn log))
    {sent : Request} {draw : Nat} (hsent : .prepared sent draw ∈ log) (a : Answer) :
    (Layer.informed pool sent a).Follows (leasesIn log) threshold
      (adds ++ (usesIn log ++ usesIn [.completed ⟨sent, a⟩])) := by
  rw [← List.append_assoc]
  unfold Layer.informed Layer.reportOn
  cases hlease : sent.proxy with
  | none => simpa [Exchange.report, hlease] using hpool
  | some lease =>
    have hmem : lease ∈ leasesIn log := mem_leasesIn hsent hlease
    cases a with
    | ok response =>
      simpa [Exchange.report, hlease] using hpool.report (r := .success lease) hmem
    | error error =>
      simpa [Exchange.report, hlease] using hpool.report (r := .failure lease) hmem

namespace Turn.Legal

variable {l : Layer} {pool : Pool} {m : Member} {turn : Turn} {log : List Happening}

/-- **The pool is used as the record says.** -/
theorem pool_eq (h : turn.Legal l pool m) : turn.pool = pool.afterAll (usesIn turn.happened) := by
  cases h with
  | waits => exact pool_prepare_eq _ _ _ _
  | hurries => exact pool_prepare_eq _ _ _ _
  | sends => rfl
  | resumes => rfl
  | answers => rfl
  | ends => exact informed_eq _ _ _
  | retries => exact informed_eq _ _ _

/-- **What a fetch carries stays on record.** -/
theorem recorded (h : turn.Legal l pool m) (hm : m.Recorded log) :
    turn.member.Recorded (log ++ turn.happened) := by
  cases h with
  | @waits r old c d => exact ⟨c.proxy, by simp⟩
  | @hurries r old c => exact ⟨c.proxy, by simp⟩
  | sends => exact hm.imp fun _ => List.mem_append_left _
  | resumes => exact hm
  | answers => exact hm.imp fun _ => List.mem_append_left _
  | ends => trivial
  | retries hproxy => exact hproxy

/-- **No call is lost.**  What is in flight and what is completed make up the calls. -/
theorem calls (h : turn.Legal l pool m) :
    (callsIn turn.happened ++ m.phase.calls).Perm
      ((completedIn turn.happened).map Exchange.request ++ turn.member.phase.calls) := by
  cases h <;> simp [Phase.calls]

/-- A request is prepared before it is sent. -/
theorem sent (h : turn.Legal l pool m) (hm : m.Recorded log) {r : Request}
    (hr : .called r ∈ turn.happened) : ∃ draw, .prepared r draw ∈ log ++ turn.happened := by
  cases h <;> simp only [List.mem_cons, List.not_mem_nil, reduceCtorEq, false_or, or_false,
    Happening.called.injEq] at hr
  case hurries r old c =>
    subst hr
    exact ⟨c.proxy, by simp⟩
  case sends =>
    subst hr
    exact hm.imp fun _ => List.mem_append_left _

/-- **A prepared request** carries no lease if it must not, and otherwise what the selection gave. -/
theorem prepared (h : turn.Legal l pool m) (hm : m.Recorded log) {r : Request} {draw : Nat}
    (hr : .prepared r draw ∈ turn.happened) :
    r.proxy = if r.dontProxy then none else pool.leased (.select r.country draw) := by
  have hprepare : ∀ (c : Chance) (first : Request), first.proxy = none →
      (l.prepare c pool first).1.proxy =
        if (l.prepare c pool first).1.dontProxy then none
        else pool.leased (.select (l.prepare c pool first).1.country c.proxy) := by
    intro c first hfirst
    obtain ⟨-, hcountry, hdont⟩ := l.destination_prepare c pool first
    rw [l.proxy_prepare, hcountry, hdont, hfirst]
  cases h <;> simp only [List.mem_cons, List.not_mem_nil, reduceCtorEq, or_false,
    Happening.prepared.injEq] at hr
  case waits =>
    obtain ⟨rfl, rfl⟩ := hr
    exact hprepare _ _ hm
  case hurries =>
    obtain ⟨rfl, rfl⟩ := hr
    exact hprepare _ _ hm

/-- **The history goes on**: a selection hands out the lease on record, and a report is on a lease
that is on record. -/
theorem follows {threshold : Nat} {adds : List Proxy.Step} (h : turn.Legal l pool m)
    (hm : m.Recorded log)
    (hpool : pool.Follows (leasesIn log) threshold (adds ++ usesIn log)) :
    turn.pool.Follows (leasesIn (log ++ turn.happened)) threshold
      (adds ++ usesIn (log ++ turn.happened)) := by
  rw [leasesIn_append, usesIn_append]
  cases h with
  | waits => simpa using follows_prepare hpool l _ hm
  | hurries => simpa using follows_prepare hpool l _ hm
  | sends => simpa using hpool
  | resumes => simpa using hpool
  | answers => simpa using hpool
  | ends =>
    obtain ⟨draw, hsent⟩ := hm
    simpa using follows_informed hpool hsent _
  | retries =>
    obtain ⟨draw, hsent⟩ := hm
    simpa using follows_informed hpool hsent _

end Turn.Legal

/-! ## 3. Runs of a crew -/

namespace Crew

variable {l : Layer} {threshold : Nat} {endpoints : List Proxy.Endpoint} {start crew : Crew}

/-- **The invariant.** -/
structure Sound (threshold : Nat) (endpoints : List Proxy.Endpoint) (start crew : Crew) : Prop where
  pool_eq : crew.pool = start.pool.afterAll (usesIn crew.log)
  follows : crew.pool.Follows (leasesIn crew.log) threshold (endpoints.map .add ++ usesIn crew.log)
  recorded : ∀ m ∈ crew.members, m.Recorded crew.log
  calls : (callsIn crew.log).Perm ((completedIn crew.log).map Exchange.request ++
    crew.members.flatMap (·.phase.calls))
  sent : ∀ r, .called r ∈ crew.log → ∃ draw, .prepared r draw ∈ crew.log
  direct : ∀ r draw, .prepared r draw ∈ crew.log → r.dontProxy = true → r.proxy = none

/-- **A step of one fetch keeps the invariant.** -/
theorem Sound.after (h : Sound threshold endpoints start crew) (event : Nat × Action) :
    Sound threshold endpoints start (crew.after l event) := by
  rcases crew.after_cases l event with
    hsame | ⟨before, m, behind, turn, hmembers, hlegal, hafter⟩
  · rw [hsame]
    exact h
  have hm : m.Recorded crew.log := h.recorded m (by simp [hmembers])
  rw [hafter]
  exact
    { pool_eq := by
        rw [usesIn_append, Pool.afterAll, List.foldl_append]
        change turn.pool = Pool.afterAll (start.pool.afterAll (usesIn crew.log)) _
        rw [← h.pool_eq]
        exact hlegal.pool_eq
      follows := hlegal.follows hm h.follows
      recorded := by
        intro other hother
        rcases List.mem_append.mp hother with hother | hother
        · exact (h.recorded other (by simp [hmembers, hother])).append _
        · rcases List.mem_cons.mp hother with rfl | hother
          · exact hlegal.recorded hm
          · exact (h.recorded other (by simp [hmembers, hother])).append _
      calls := by
        refine List.perm_iff_count.mpr fun r => ?_
        have hbefore := h.calls.count_eq r
        have hturn := hlegal.calls.count_eq r
        simp only [hmembers, callsIn_append, completedIn_append, List.flatMap_append,
          List.flatMap_cons, List.map_append, List.count_append] at hbefore hturn ⊢
        omega
      sent := by
        intro r hr
        rcases List.mem_append.mp hr with hr | hr
        · exact (h.sent r hr).imp fun _ => List.mem_append_left _
        · exact hlegal.sent hm hr
      direct := by
        intro r draw hr hdont
        rcases List.mem_append.mp hr with hr | hr
        · exact h.direct r draw hr hdont
        · rw [hlegal.prepared hm hr, if_pos hdont] }

/-- Fetches that have not begun, of requests without a proxy, on a pool of unused endpoints. -/
theorem sound_start (threshold : Nat) (strategy : Proxy.Strategy) {requests : List Request}
    (hfresh : ∀ e ∈ endpoints, e.failures = 0) (hdirect : ∀ r ∈ requests, r.proxy = none) :
    Sound (max threshold 1) endpoints
      (Crew.start (endpoints.foldl Pool.add (Pool.new threshold strategy)) requests)
      (Crew.start (endpoints.foldl Pool.add (Pool.new threshold strategy)) requests) where
  pool_eq := rfl
  follows := by
    change (endpoints.foldl Pool.add (Pool.new threshold strategy)).Follows [] (max threshold 1)
      (endpoints.map .add ++ [])
    rw [List.append_nil]
    induction endpoints using List.reverseRecOn with
    | nil =>
      exact Pool.follows_afterAll threshold strategy (fun _ he => absurd he List.not_mem_nil)
        fun i hi => absurd hi (Nat.not_lt_zero i)
    | append_singleton endpoints e ih =>
      rw [List.foldl_append, List.map_append]
      exact (ih fun e he => hfresh e (List.mem_append_left _ he)).add (hfresh e (by simp))
  recorded m hm := by
    obtain ⟨r, hr, rfl⟩ := List.mem_map.mp hm
    exact hdirect r hr
  calls := by simp [Crew.start, List.flatMap_map, Phase.calls]
  sent r hr := absurd hr List.not_mem_nil
  direct r draw hr := absurd hr List.not_mem_nil

/-- **The run.** -/
theorem Sound.afterAll : ∀ (events : List (Nat × Action)) {crew : Crew},
    Sound threshold endpoints start crew → Sound threshold endpoints start (crew.afterAll l events)
  | [], _, h => h
  | event :: events, _, h => Sound.afterAll events (h.after event)

/-! ## 4. Endpoints that left -/

/-- The endpoints of a crew's pool are those it began with. -/
theorem added_uses (endpoints : List Proxy.Endpoint) (log : List Happening) :
    Proxy.added (endpoints.map .add ++ usesIn log) = endpoints := by
  have happend : ∀ first second : List Proxy.Step,
      Proxy.added (first ++ second) = Proxy.added first ++ Proxy.added second :=
    fun _ _ => List.filterMap_append
  have hadds : Proxy.added (endpoints.map .add) = endpoints := by
    simp [Proxy.added, List.filterMap_map]
  have huses : Proxy.added (usesIn log) = [] := by
    induction log with
    | nil => rfl
    | cons happening log ih =>
      cases happening with
      | prepared r draw =>
        rw [usesIn_prepared, happend, ih]
        by_cases hproxy : r.dontProxy = true <;> simp [hproxy, Proxy.added]
      | called r => exact ih
      | completed x =>
        rw [usesIn_completed, happend, ih]
        cases x.report <;> simp [Proxy.added]
  rw [happend, hadds, huses, List.append_nil]

/-- **An endpoint that left does not come back.** -/
theorem Sound.present_of_later (hpos : 0 < threshold) (h : Sound threshold endpoints start crew)
    {later : Crew} (hlater : Sound threshold endpoints start later) {more : List Happening}
    (hlog : later.log = crew.log ++ more) {id : Nat} (hid : later.pool.Present id) :
    crew.pool.Present id := by
  have hknown : id < endpoints.length := by
    obtain ⟨entry, hentry, rfl⟩ := hid
    obtain ⟨e, he, -⟩ := (hlater.follows.trueTo hpos).counted entry hentry
    rw [added_uses] at he
    exact (List.getElem?_eq_some_iff.mp he).1
  have hnot := ((hlater.follows.trueTo hpos).present_iff id (by rwa [added_uses])).mp hid
  refine ((h.follows.trueTo hpos).present_iff id (by rwa [added_uses])).mpr fun hworn => hnot ?_
  have hreports : Proxy.reportsOn id (endpoints.map .add ++ usesIn later.log) =
      Proxy.reportsOn id (endpoints.map .add ++ usesIn crew.log) ++
        Proxy.reportsOn id (usesIn more) := by
    rw [hlog, usesIn_append, ← List.append_assoc]
    exact List.filterMap_append
  rw [hreports]
  exact hworn.append _

/-- **What is attached later was still there.** -/
theorem Sound.present_of_attached (hpos : 0 < threshold) (h : Sound threshold endpoints start crew) :
    ∀ events : List (Nat × Action), ∃ more, (crew.afterAll l events).log = crew.log ++ more ∧
      ∀ r draw, .prepared r draw ∈ more → ∀ lease ∈ r.proxy, crew.pool.Present lease.id := by
  intro events
  induction events using List.reverseRecOn with
  | nil => exact ⟨[], (List.append_nil _).symm, fun _ _ hr => absurd hr List.not_mem_nil⟩
  | append_singleton events event ih =>
    obtain ⟨more, hlog, hmore⟩ := ih
    have hnow : Sound threshold endpoints start (crew.afterAll l events) := h.afterAll events
    rw [show crew.afterAll l (events ++ [event]) = (crew.afterAll l events).after l event by
      simp [Crew.afterAll]]
    rcases (crew.afterAll l events).after_cases l event with
      hsame | ⟨before, m, behind, turn, hmembers, hlegal, hafter⟩
    · rw [hsame]
      exact ⟨more, hlog, hmore⟩
    · rw [hafter]
      refine ⟨more ++ turn.happened, by rw [hlog, List.append_assoc], fun r draw hr lease hlease => ?_⟩
      rcases List.mem_append.mp hr with hr | hr
      · exact hmore r draw hr lease hlease
      · have hm : m.Recorded (crew.afterAll l events).log := hnow.recorded m (by simp [hmembers])
        have hproxy := hlegal.prepared hm hr
        rw [Option.mem_def.mp hlease] at hproxy
        split at hproxy
        · cases hproxy
        · exact h.present_of_later hpos hnow hlog (Pool.present_of_leased hproxy.symm)

/-! ## 5. Going out without a proxy -/

/-- A fetch that acts stands where its action leads, and what happened is put on record. -/
theorem member_after_of_act {i : Nat} {m : Member} {action : Action} {turn : Turn}
    (hm : crew.members[i]? = some m) (hact : m.act l crew.pool action = some turn) :
    (crew.after l (i, action)).members[i]? = some turn.member ∧
      (crew.after l (i, action)).log = crew.log ++ turn.happened := by
  rw [after_of_act hm hact]
  exact ⟨List.getElem?_set_self (List.getElem?_eq_some_iff.mp hm).1, rfl⟩

/-- The record only grows. -/
theorem log_afterAll : ∀ (events : List (Nat × Action)) (crew : Crew),
    ∃ more, (crew.afterAll l events).log = crew.log ++ more
  | [], crew => ⟨[], (List.append_nil _).symm⟩
  | event :: events, crew => by
    obtain ⟨more, hmore⟩ := log_afterAll events (crew.after l event)
    have hfirst : ∃ first, (crew.after l event).log = crew.log ++ first := by
      rcases crew.after_cases l event with hsame | ⟨_, _, _, turn, -, -, hafter⟩
      · exact ⟨[], by rw [hsame, List.append_nil]⟩
      · exact ⟨turn.happened, by rw [hafter]⟩
    obtain ⟨first, hfirst⟩ := hfirst
    refine ⟨first ++ more, ?_⟩
    rw [← List.append_assoc, ← hfirst]
    exact hmore

/-- **Without an endpoint to choose from** the request goes out directly, whatever the other fetches
do between its preparation and the end of its wait. -/
theorem Sound.goes_out (h : Sound threshold endpoints start crew) {i : Nat} {r : Request}
    {old : Option Answer} (hm : crew.members[i]? = some ⟨.ready r, old⟩)
    (hnone : crew.pool.candidates r.country = []) (c c' : Chance) {others : List (Nat × Action)}
    (hothers : ∀ event ∈ others, event.1 ≠ i) :
    ∃ sent more, sent.url = r.url ∧ sent.proxy = none ∧ .called sent ∈ more ∧
      (crew.afterAll l ((i, .proceed c) :: others ++ [(i, .proceed c')])).members[i]? =
        some ⟨.calling sent, none⟩ ∧
      (crew.afterAll l ((i, .proceed c) :: others ++ [(i, .proceed c')])).log =
        crew.log ++ more := by
  obtain ⟨hurl, -, -⟩ := l.destination_prepare c crew.pool r
  have hdirect : r.proxy = none := h.recorded _ (List.mem_of_getElem? hm)
  have hproxy : (l.prepare c crew.pool r).1.proxy = none := by
    rw [l.proxy_prepare, hdirect, Pool.leased_of_candidates_eq_nil c.proxy hnone, ite_self]
  have hsplit : crew.afterAll l ((i, .proceed c) :: others ++ [(i, .proceed c')]) =
      ((crew.after l (i, .proceed c)).afterAll l others).after l (i, .proceed c') := by
    simp [Crew.afterAll]
  have hstays : ((crew.after l (i, .proceed c)).afterAll l others).members[i]? =
      (crew.after l (i, .proceed c)).members[i]? := getElem?_afterAll hothers
  obtain ⟨between, hbetween⟩ := log_afterAll (l := l) others (crew.after l (i, .proceed c))
  rw [hsplit]
  cases hdelay : (l.prepare c crew.pool r).1.delay with
  | none =>
    obtain ⟨hfirst, hlog⟩ := member_after_of_act hm (Member.act_ready_of_no_delay hdelay)
    have hcalling := hstays.trans hfirst
    rw [after_of_act_eq_none hcalling Member.act_calling]
    rw [hlog, List.append_assoc] at hbetween
    exact ⟨_, _, hurl, hproxy, by simp, hcalling, hbetween⟩
  | some d =>
    obtain ⟨hfirst, hlog⟩ := member_after_of_act hm (Member.act_ready_of_delay hdelay)
    obtain ⟨hlast, hlastLog⟩ := member_after_of_act (hstays.trans hfirst) (l := l)
      (Member.act_delayed (c := c'))
    rw [hbetween, hlog, List.append_assoc, List.append_assoc] at hlastLog
    exact ⟨_, _, hurl, hproxy, by simp, hlast, hlastLog⟩

end Crew

/-! ## 6. The law -/

/-- How a crew that began as `start` stands to the pool it uses and the endpoints in it. -/
structure Crew.Accounts (l : Layer) (endpoints : List Proxy.Endpoint) (start crew : Crew) :
    Prop where
  /-- Every call is in flight or completed, and completed only once. -/
  calls : (callsIn crew.log).Perm ((completedIn crew.log).map Exchange.request ++
    crew.members.flatMap (·.phase.calls))
  /-- The pool heard of every completed call that carried a lease, once, in the order of completion
  and on that lease; it heard of nothing else. -/
  reports : crew.pool = start.pool.afterAll (usesIn crew.log)
  /-- The counter of an endpoint is the number of calls through it that failed since the last one that
  was answered. -/
  counters : ∀ entry ∈ crew.pool.entries, ∃ e, endpoints[entry.id]? = some e ∧
    entry.endpoint = { e with
      failures := failedInARow ((completedIn crew.log).filter (Exchange.isThrough entry.id)) }
  /-- Every request that is sent was prepared as it is. -/
  prepared : ∀ r, .called r ∈ crew.log → ∃ draw, .prepared r draw ∈ crew.log
  /-- A request that must not go through a proxy carries no lease. -/
  direct : ∀ r draw, .prepared r draw ∈ crew.log → r.dontProxy = true → r.proxy = none
  /-- Whatever is done next, an endpoint that has left is not attached to any request. -/
  evicted : ∀ events, ∃ more, (crew.afterAll l events).log = crew.log ++ more ∧
    ∀ r draw, .prepared r draw ∈ more → ∀ lease ∈ r.proxy, crew.pool.Present lease.id
  /-- A request for which there is no endpoint is sent without a lease. -/
  goesOut : ∀ i r old, crew.members[i]? = some ⟨.ready r, old⟩ →
    crew.pool.candidates r.country = [] → ∀ c c' others, (∀ event ∈ others, event.1 ≠ i) →
    ∃ sent more, sent.url = r.url ∧ sent.proxy = none ∧ .called sent ∈ more ∧
      (crew.afterAll l ((i, .proceed c) :: others ++ [(i, .proceed c')])).members[i]? =
        some ⟨.calling sent, none⟩ ∧
      (crew.afterAll l ((i, .proceed c) :: others ++ [(i, .proceed c')])).log = crew.log ++ more

open Crew in
/-- **One report for every call through a proxy.**  Fetches share a layer and a pool that nobody else
uses; they begin without a lease.  After any interleaving of their actions, with any answers, the pool
stands as if it had been told of each completed call that carried a lease, and of nothing else. -/
theorem one_report_for_every_call (l : Layer) (threshold : Nat) (strategy : Proxy.Strategy)
    {endpoints : List Proxy.Endpoint} (hfresh : ∀ e ∈ endpoints, e.failures = 0)
    {requests : List Request} (hdirect : ∀ r ∈ requests, r.proxy = none)
    (events : List (Nat × Action)) :
    Accounts l endpoints
      (Crew.start (endpoints.foldl Pool.add (Pool.new threshold strategy)) requests)
      ((Crew.start (endpoints.foldl Pool.add (Pool.new threshold strategy)) requests).afterAll l
        events) := by
  have hpos : 0 < max threshold 1 := by omega
  have h := (sound_start threshold strategy hfresh hdirect).afterAll (l := l) events
  exact
    { calls := h.calls
      reports := h.pool_eq
      counters := by
        intro entry hentry
        obtain ⟨e, he, hcounted⟩ := (h.follows.trueTo hpos).counted entry hentry
        rw [added_uses] at he
        rw [failuresInARow_reportsOn] at hcounted
        exact ⟨e, he, hcounted⟩
      prepared := h.sent
      direct := h.direct
      evicted := h.present_of_attached hpos
      goesOut := fun i r old hm hnone c c' others hothers => h.goes_out hm hnone c c' hothers }

open Crew in
/-- Two fetches hold a lease on the only endpoint when both of their calls fail.  The second report
makes it leave, and the next attempt of the first fetch goes out without a proxy. -/
theorem one_report_for_every_call_shared_endpoint :
    let l : Layer :=
      { policy := ⟨1, .zero, .zero, .zero, []⟩, rotator := ⟨["agent"]⟩, delayMin := .zero,
        delayMax := .zero, timeout := .zero }
    let endpoints : List Proxy.Endpoint := [{ host := "h", port := 80 }]
    let requests : List Request := [{ url := "a", dontDelay := true }, { url := "b" }]
    let first := Crew.start (endpoints.foldl Pool.add (Pool.new 2 .random)) requests
    let events : List (Nat × Action) :=
      [(0, .proceed {}), (1, .proceed {}), (1, .proceed {}), (0, .answer (.error .timeout)),
        (1, .answer (.error .timeout)), (1, .take {}), (0, .take {}), (0, .proceed {}),
        (0, .proceed {})]
    Accounts l endpoints first (first.afterAll l events) ∧
      ((first.afterAll l (events.take 6)).pool.entries.map fun x => x.endpoint.failures) = [1] ∧
      (first.afterAll l events).pool.entries = [] ∧
      (callsIn (first.afterAll l events).log).map (fun r => (r.url, r.proxy.isSome)) =
        [("a", true), ("b", true), ("a", false)] := by
  intro l endpoints requests first events
  have hfresh : ∀ e ∈ endpoints, e.failures = 0 := by simp [endpoints]
  have hdirect : ∀ r ∈ requests, r.proxy = none := by simp [requests]
  exact ⟨one_report_for_every_call l 2 .random hfresh hdirect events, by decide +kernel,
    by decide +kernel, by decide +kernel⟩

end Shortlist.Fetch
