import Shortlist.Proofs.Proxy.History

/-!
# The history law of pools

A pool is decided by the reports on each of its endpoints alone: an endpoint is in the pool as long as
its reports have no row of failures as long as the threshold, and its counter is the row of failures at
their end.

The invariant that carries this is `Follows`.  It gives the entries of the pool as a function of the
history, by running the counter of each endpoint over its own list of reports.  Removing an entry does
not disturb this, as the entries are found by their identities and not by where they stand; and an
endpoint begins without any reports, as no lease on it was handed out before it was added.
-/

namespace Shortlist.Proxy

open Pool (Report)

/-! ## 1. The entries of a pool -/

/-- The entry of an endpoint with its identity, if its reports leave it in the pool. -/
def survivor (threshold : Nat) (steps : List Step) (x : Endpoint × Nat) : Option Entry :=
  (standing threshold (reportsOn x.2 steps)).map (Entry.mk x.2 x.1).withFailures

/-- The entries that a history leaves in a pool. -/
def survivors (threshold : Nat) (steps : List Step) : List Entry :=
  (added steps).zipIdx.filterMap (survivor threshold steps)

theorem id_of_survivor {threshold : Nat} {steps : List Step} {x : Endpoint × Nat} {entry : Entry}
    (h : survivor threshold steps x = some entry) : entry.id = x.2 := by
  obtain ⟨n, -, rfl⟩ := Option.map_eq_some_iff.mp h
  rfl

/-- The entries are those endpoints whose counter still runs, each with its counter. -/
theorem mem_survivors {threshold : Nat} {steps : List Step} {entry : Entry} :
    entry ∈ survivors threshold steps ↔
      ∃ e n, (added steps)[entry.id]? = some e ∧
        standing threshold (reportsOn entry.id steps) = some n ∧
        entry = (Entry.mk entry.id e).withFailures n := by
  rw [survivors, List.mem_filterMap]
  constructor
  · rintro ⟨⟨e, i⟩, hmem, hsurvivor⟩
    obtain ⟨n, hn, rfl⟩ := Option.map_eq_some_iff.mp hsurvivor
    exact ⟨e, n, List.mem_zipIdx_iff_getElem?.mp hmem, hn, rfl⟩
  · rintro ⟨e, n, he, hn, hentry⟩
    refine ⟨(e, entry.id), List.mem_zipIdx_iff_getElem?.mpr he, ?_⟩
    rw [survivor, hn, Option.map_some, ← hentry]

/-- The entries stand in the order in which their endpoints were added. -/
theorem pairwise_survivors (threshold : Nat) (steps : List Step) :
    (survivors threshold steps).Pairwise fun a b => a.id < b.id := by
  have hplaces : (added steps).zipIdx.Pairwise fun x y => x.2 < y.2 := by
    rw [← List.pairwise_map (f := Prod.snd) (R := (· < ·)), List.zipIdx_map_snd]
    exact List.pairwise_lt_range'
  rw [survivors, List.pairwise_filterMap]
  refine hplaces.imp fun {x y} hlt a ha b hb => ?_
  rwa [id_of_survivor ha, id_of_survivor hb]

/-- A report moves on the counter of its own endpoint only. -/
theorem survivor_concat_report (threshold : Nat) (steps : List Step) (r : Report)
    (x : Endpoint × Nat) :
    survivor threshold (steps ++ [.report r]) x =
      (survivor threshold steps x).bind (Entry.afterReport threshold r) := by
  unfold survivor
  rw [reportsOn_concat_report]
  by_cases hid : r.lease.id = x.2
  · rw [if_pos hid, standing_concat]
    cases standing threshold (reportsOn x.2 steps) with
    | none => rfl
    | some n =>
      simp only [Option.bind_some, Option.map_some, Entry.afterReport, Entry.id_withFailures, hid,
        if_true, Entry.failures_withFailures]
      rfl
  · rw [if_neg hid]
    cases standing threshold (reportsOn x.2 steps) with
    | none => rfl
    | some n =>
      simp only [Option.map_some, Option.bind_some, Entry.afterReport, Entry.id_withFailures,
        Ne.symm hid, if_false]

/-! ## 2. Steps and runs -/

/-- The lease is one on an endpoint that was added, with its URL and its label. -/
def Lease.IsOn (lease : Lease) (endpoints : List Endpoint) : Prop :=
  ∃ e, endpoints[lease.id]? = some e ∧ lease.url = e.url ∧ lease.label = e.label

theorem Lease.IsOn.lt {lease : Lease} {es : List Endpoint} (h : lease.IsOn es) :
    lease.id < es.length := by
  obtain ⟨e, he, -⟩ := h
  exact (List.getElem?_eq_some_iff.mp he).1

theorem Lease.IsOn.append {lease : Lease} {es : List Endpoint} (h : lease.IsOn es)
    (more : List Endpoint) : lease.IsOn (es ++ more) := by
  obtain ⟨e, he, hlease⟩ := h
  exact ⟨e, by rw [List.getElem?_append_left (List.getElem?_eq_some_iff.mp he).1, he], hlease⟩

namespace Pool

/-- The pool and the leases it handed out are those that a history makes. -/
structure Follows (p : Pool) (leases : List Lease) (threshold : Nat) (steps : List Step) :
    Prop where
  threshold_eq : p.threshold = threshold
  entries_eq : p.entries = survivors threshold steps
  nextId_eq : p.nextId = (added steps).length
  enabled_iff : p.enabled = true ↔ added steps ≠ []
  leases_on : ∀ lease ∈ leases, lease.IsOn (added steps)
  /-- Nothing was reported on endpoints that were not added yet. -/
  reports_on : ∀ id, (added steps).length ≤ id → reportsOn id steps = []

variable {p : Pool} {leases : List Lease} {threshold : Nat} {steps : List Step}

namespace Follows

/-- Nobody is in the pool twice. -/
theorem distinct (h : p.Follows leases threshold steps) : p.Distinct := by
  rw [Distinct, h.entries_eq, List.Nodup, List.pairwise_map]
  exact (pairwise_survivors threshold steps).imp Nat.ne_of_lt

/-- Adding an endpoint. -/
theorem add (h : p.Follows leases threshold steps) {e : Endpoint} (he : e.failures = 0) :
    (p.add e).Follows leases threshold (steps ++ [.add e]) where
  threshold_eq := h.threshold_eq
  entries_eq := by
    have hold : survivor threshold (steps ++ [.add e]) = survivor threshold steps :=
      funext fun x => by rw [survivor, reportsOn_concat_add, survivor]
    have hnew : survivor threshold steps (e, (added steps).length) =
        some ⟨(added steps).length, e⟩ := by
      have hzero : ({ e with failures := 0 } : Endpoint) = e := by rw [← he]
      rw [survivor, h.reports_on _ (Nat.le_refl _)]
      simp only [standing, List.foldlM_nil, Option.pure_def, Option.map_some, Entry.withFailures,
        hzero]
    rw [Pool.add, h.entries_eq, h.nextId_eq, survivors, survivors, hold, added_concat_add,
      List.zipIdx_append, List.filterMap_append]
    simp [hnew]
  nextId_eq := by simp [Pool.add, h.nextId_eq]
  enabled_iff := by simp [Pool.add]
  leases_on lease hlease := by
    rw [added_concat_add]
    exact (h.leases_on lease hlease).append _
  reports_on id hid := by
    rw [added_concat_add, List.length_append, List.length_singleton] at hid
    rw [reportsOn_concat_add]
    exact h.reports_on id (by omega)

/-- A selection hands out a lease on an endpoint that is in the pool, if any, and leaves the entries
alone. -/
theorem select (h : p.Follows leases threshold steps) (country : Option String) (draw : Nat) :
    (p.select country draw).2.Follows (leases ++ (p.select country draw).1.toList) threshold
      (steps ++ [.select country draw]) := by
  have hold : survivor threshold (steps ++ [.select country draw]) = survivor threshold steps :=
    funext fun x => by rw [survivor, reportsOn_concat_select, survivor]
  have hkeeps : (p.select country draw).2 = { p with cursor := (p.select country draw).2.cursor } := by
    unfold Pool.select
    simp only
    split <;> rfl
  have hlease : ∀ lease ∈ (p.select country draw).1, lease.IsOn (added steps) := by
    intro lease hlease
    unfold Pool.select at hlease
    simp only at hlease
    split at hlease
    · cases hlease
    · rename_i entry hentry
      obtain rfl := Option.some.inj hlease
      have hmem : entry ∈ p.entries := (List.mem_filter.mp (List.mem_of_getElem? hentry)).1
      rw [h.entries_eq, mem_survivors] at hmem
      obtain ⟨e, n, he, -, hshape⟩ := hmem
      refine ⟨e, he, ?_, ?_⟩ <;> rw [hshape] <;> rfl
  rw [hkeeps]
  exact
    { threshold_eq := h.threshold_eq
      entries_eq := by
        rw [survivors, hold, added_concat_select]
        exact h.entries_eq
      nextId_eq := by rw [added_concat_select]; exact h.nextId_eq
      enabled_iff := by rw [added_concat_select]; exact h.enabled_iff
      leases_on := fun lease hmem => by
        rw [added_concat_select]
        rcases List.mem_append.mp hmem with hmem | hmem
        · exact h.leases_on lease hmem
        · exact hlease lease (Option.mem_toList.mp hmem)
      reports_on := fun id hid => by
        rw [added_concat_select] at hid
        rw [reportsOn_concat_select]
        exact h.reports_on id hid }

/-- A report on a lease that was handed out. -/
theorem report (h : p.Follows leases threshold steps) {r : Report} (hr : r.lease ∈ leases) :
    (p.take r).Follows leases threshold (steps ++ [.report r]) := by
  have hentries : (p.take r).entries = survivors threshold (steps ++ [.report r]) := by
    rw [entries_take h.distinct, h.entries_eq, h.threshold_eq, survivors, List.filterMap_filterMap,
      survivors, added_concat_report]
    exact List.filterMap_congr fun x _ => (survivor_concat_report threshold steps r x).symm
  rw [take_eq]
  exact
    { threshold_eq := h.threshold_eq
      entries_eq := hentries
      nextId_eq := by rw [added_concat_report]; exact h.nextId_eq
      enabled_iff := by rw [added_concat_report]; exact h.enabled_iff
      leases_on := fun lease hmem => by rw [added_concat_report]; exact h.leases_on lease hmem
      reports_on := fun id hid => by
        rw [added_concat_report] at hid
        have hlt := (h.leases_on r.lease hr).lt
        rw [reportsOn_concat_report, if_neg (by omega)]
        exact h.reports_on id hid }

/-- **The step.** -/
theorem after (h : p.Follows leases threshold steps) {s : Step}
    (hadd : ∀ e, s = .add e → e.failures = 0) (hknows : Knows leases s) :
    (p.after s).Follows (leases ++ (p.leased s).toList) threshold (steps ++ [s]) := by
  cases s with
  | add e =>
    rw [leased_add, Option.toList_none, List.append_nil]
    exact h.add (hadd e rfl)
  | select country draw => exact h.select country draw
  | report r =>
    rw [leased_report, Option.toList_none, List.append_nil]
    exact h.report hknows

end Follows

/-- **The run.**  A pool that began without endpoints follows its history. -/
theorem follows_afterAll (threshold : Nat) (strategy : Strategy) {steps : List Step}
    (hadd : ∀ e, .add e ∈ steps → e.failures = 0) (hgenuine : (new threshold strategy).Genuine steps) :
    ((new threshold strategy).afterAll steps).Follows ((new threshold strategy).issued steps)
      (max threshold 1) steps := by
  induction steps using List.reverseRecOn with
  | nil =>
    exact
      { threshold_eq := rfl
        entries_eq := rfl
        nextId_eq := rfl
        enabled_iff := by simp [afterAll, new, added]
        leases_on := fun lease hlease => absurd hlease List.not_mem_nil
        reports_on := fun _ _ => rfl }
  | append_singleton steps s ih =>
    obtain ⟨hbefore, hknows⟩ := hgenuine.of_concat
    rw [afterAll_concat, issued_concat]
    refine (ih (fun e he => hadd e (List.mem_append_left _ he)) hbefore).after ?_ hknows
    rintro e rfl
    exact hadd e (by simp)

/-! ## 3. The law -/

/-- **A pool is true to its history.**  Endpoints are known by their places among all that were ever
added. -/
structure TrueTo (p : Pool) (threshold : Nat) (steps : List Step) : Prop where
  /-- An endpoint that was added is in the pool unless it failed too often in a row. -/
  present_iff : ∀ id < (added steps).length,
    p.Present id ↔ ¬ WornOut threshold (reportsOn id steps)
  /-- An endpoint in the pool is as it was added but for its counter, which counts the failures that
  were reported since it was added or last succeeded. -/
  counted : ∀ entry ∈ p.entries, ∃ e, (added steps)[entry.id]? = some e ∧
    entry.endpoint = { e with failures := failuresInARow (reportsOn entry.id steps) }
  /-- The counter can take one more failure without going above the threshold. -/
  below : ∀ entry ∈ p.entries, entry.endpoint.failures < threshold
  ordered : p.entries.Pairwise fun a b => a.id < b.id
  enabled_iff : p.enabled = true ↔ added steps ≠ []

/-- **A pool takes reports on a lease as it should.** -/
structure Honours (p : Pool) (lease : Lease) : Prop where
  /-- A failure is answered with yes exactly when it makes the endpoint leave. -/
  yes_iff : (p.reportFailure lease).1 = true ↔
    p.Present lease.id ∧ ¬ (p.reportFailure lease).2.Present lease.id
  /-- Once the endpoint has left, reports change nothing. -/
  gone : ¬ p.Present lease.id →
    p.reportSuccess lease = p ∧ p.reportFailure lease = (false, p)
  /-- No other endpoint is touched, and nothing else of the pool. -/
  others : ∀ report : Report, report.lease = lease →
    p.take report = { p with entries := (p.take report).entries } ∧
      (p.take report).entries.filter (·.id ≠ lease.id) = p.entries.filter (·.id ≠ lease.id)

/-- A pool that follows a history is true to it. -/
theorem Follows.trueTo (h : p.Follows leases threshold steps) (hpos : 0 < threshold) :
    p.TrueTo threshold steps where
  present_iff id hid := by
    obtain ⟨e, he⟩ : ∃ e, (added steps)[id]? = some e := ⟨_, List.getElem?_eq_getElem hid⟩
    rw [Present, h.entries_eq]
    rcases standing_spec hpos (reportsOn id steps) with ⟨hgone, hworn⟩ | ⟨hthere, hnot, -⟩
    · refine iff_of_false ?_ (not_not_intro hworn)
      rintro ⟨entry, hentry, rfl⟩
      obtain ⟨_, n, -, hn, -⟩ := mem_survivors.mp hentry
      rw [hgone] at hn
      cases hn
    · refine iff_of_true ⟨(Entry.mk id e).withFailures (failuresInARow (reportsOn id steps)), ?_,
        rfl⟩ hnot
      exact mem_survivors.mpr ⟨e, _, he, hthere, rfl⟩
  counted entry hentry := by
    rw [h.entries_eq, mem_survivors] at hentry
    obtain ⟨e, n, he, hn, hshape⟩ := hentry
    refine ⟨e, he, ?_⟩
    rcases standing_spec hpos (reportsOn entry.id steps) with ⟨hgone, -⟩ | ⟨hthere, -⟩
    · rw [hgone] at hn
      cases hn
    · rw [← Option.some.inj (hn.symm.trans hthere), hshape]
      rfl
  below entry hentry := by
    rw [h.entries_eq, mem_survivors] at hentry
    obtain ⟨e, n, -, hn, hshape⟩ := hentry
    rcases standing_spec hpos (reportsOn entry.id steps) with ⟨hgone, -⟩ | ⟨hthere, -, hbelow⟩
    · rw [hgone] at hn
      cases hn
    · rw [hshape, Entry.failures_withFailures, Option.some.inj (hn.symm.trans hthere)]
      exact hbelow
  ordered := by
    rw [h.entries_eq]
    exact pairwise_survivors threshold steps
  enabled_iff := h.enabled_iff

/-- A pool that follows a history honours every lease. -/
theorem Follows.honours (h : p.Follows leases threshold steps) (lease : Lease) :
    p.Honours lease where
  yes_iff := reportFailure_fst_iff p lease
  gone := report_of_not_present
  others report hreport := by
    subst hreport
    exact ⟨take_eq p report, others_take h.distinct report⟩

/-- **The history law.**  Whatever clients ask of a pool and however their steps are interleaved, the
pool is true to its history: what is in it and what its counters say is decided by the reports on
each endpoint.  Every lease it handed out is one on an endpoint that was added, and whatever is
reported on it next is taken as it should be. -/
theorem true_to_history (threshold : Nat) (strategy : Strategy) {clients : List (List Call)}
    {steps : List Step} (hfresh : ∀ calls ∈ clients, ∀ e, .add e ∈ calls → e.failures = 0)
    (hsteps : Interleaving (clients.map (·.flatMap Call.steps)) steps)
    (hgenuine : (new threshold strategy).Genuine steps) :
    ((new threshold strategy).afterAll steps).TrueTo (max threshold 1) steps ∧
      (∀ lease ∈ (new threshold strategy).issued steps, lease.IsOn (added steps) ∧
        ((new threshold strategy).afterAll steps).Honours lease) ∧
      ∀ text, (((new threshold strategy).afterAll steps).load text).1 =
        (new threshold strategy).afterAll (steps ++ (Call.load text).steps) := by
  have hadd : ∀ e, .add e ∈ steps → e.failures = 0 := by
    intro e he
    obtain ⟨l, hl, hel⟩ := hsteps.mem _ he
    obtain ⟨calls, hcalls, rfl⟩ := List.mem_map.mp hl
    obtain ⟨call, hcall, hstep⟩ := List.mem_flatMap.mp hel
    cases call with
    | add e' =>
      cases List.mem_singleton.mp hstep
      exact hfresh calls hcalls e hcall
    | load text =>
      obtain ⟨e', he', heq⟩ := List.mem_map.mp hstep
      cases heq
      exact Endpoint.failures_of_mem_ofList he'
    | select country draw => cases List.mem_singleton.mp hstep
    | report r => cases List.mem_singleton.mp hstep
  have h := follows_afterAll threshold strategy hadd hgenuine
  refine ⟨h.trueTo (by omega), fun lease hlease => ⟨h.leases_on lease hlease, h.honours lease⟩,
    fun text => ?_⟩
  rw [load_eq_afterAll, afterAll, afterAll, afterAll, List.foldl_append]

/-- Two clients add the same host and port; one endpoint fails twice and leaves, the other stays, and a
late report on the first one by the other client changes nothing. -/
theorem true_to_history_late_report :
    let e : Endpoint := { host := "h", port := 80 }
    let lease : Lease := ⟨0, e.url, e.label⟩
    let steps : List Step := [.add e, .add e, .select none 0, .report (.failure lease),
      .report (.failure lease), .report (.failure lease)]
    ((new 2 .random).afterAll steps).TrueTo 2 steps ∧
      ¬ ((new 2 .random).afterAll steps).Present 0 ∧ ((new 2 .random).afterAll steps).Present 1 := by
  intro e lease steps
  have hload : (Call.load "h:80").steps = [.add e] := by decide +kernel
  have hgenuine : (new 2 .random).Genuine steps := by decide +kernel
  have hsteps : Interleaving (List.map (·.flatMap Call.steps)
      [[.add e, .select none 0, .report (.failure lease), .report (.failure lease)],
        [.load "h:80", .report (.failure lease)]]) steps := by
    simp only [List.map_cons, List.map_nil, List.flatMap_cons, List.flatMap_nil, hload]
    refine @Interleaving.take _ [] _ _ _ _ (@Interleaving.take _ [_] _ _ _ _ ?_)
    refine @Interleaving.take _ [] _ _ _ _ (@Interleaving.take _ [] _ _ _ _ ?_)
    exact @Interleaving.take _ [] _ _ _ _ (@Interleaving.take _ [_] _ _ _ _ .stop)
  have hfresh : ∀ calls ∈ [[Call.add e, .select none 0, .report (.failure lease),
      .report (.failure lease)], [.load "h:80", .report (.failure lease)]],
      ∀ e', Call.add e' ∈ calls → e'.failures = 0 := by
    simp [e]
  exact ⟨(true_to_history 2 .random hfresh hsteps hgenuine).1, by decide +kernel, by decide +kernel⟩

end Pool

end Shortlist.Proxy
