import Mathlib.Data.List.Nodup
import Shortlist.Proxy.Pool

/-!
# What a report does to a pool

A report is about one endpoint, the one whose identity is written on the lease, and says how the
counter of that endpoint goes on: back to 0, one up, or out of the pool.  `entries_take` says so for
the whole list of entries, and everything about pools over time is derived from it; nothing behind
this file unfolds a report.
-/

namespace Shortlist.Proxy

/-! ## 1. How a counter goes on -/

namespace Pool.Report

/-- The lease that a report is about. -/
def lease : Report → Lease
  | .success lease => lease
  | .failure lease => lease

/-- Whether a report is one of a failure. -/
def failed : Report → Bool
  | .success _ => false
  | .failure _ => true

/-- How a counter of failures goes on with a report; none if that makes the endpoint leave. -/
def effect (threshold : Nat) (report : Report) (failures : Nat) : Option Nat :=
  if report.failed then if failures + 1 < threshold then some (failures + 1) else none
  else some 0

end Pool.Report

/-- An entry with its counter set. -/
def Entry.withFailures (entry : Entry) (failures : Nat) : Entry :=
  { entry with endpoint := { entry.endpoint with failures } }

@[simp] theorem Entry.id_withFailures (entry : Entry) (n : Nat) : (entry.withFailures n).id = entry.id :=
  rfl

@[simp] theorem Entry.failures_withFailures (entry : Entry) (n : Nat) :
    (entry.withFailures n).endpoint.failures = n := rfl

/-- What a report leaves of an entry: nothing changes unless the lease is on that entry. -/
def Entry.afterReport (threshold : Nat) (report : Pool.Report) (entry : Entry) : Option Entry :=
  if entry.id = report.lease.id then
    (report.effect threshold entry.endpoint.failures).map entry.withFailures
  else some entry

namespace Pool

variable {p : Pool} {lease : Lease}

/-! ## 2. The entry of a lease -/

/-- The endpoint with this identity is in the pool. -/
def Present (p : Pool) (id : Nat) : Prop := ∃ entry ∈ p.entries, entry.id = id

instance (p : Pool) (id : Nat) : Decidable (p.Present id) :=
  inferInstanceAs (Decidable (∃ entry ∈ p.entries, entry.id = id))

/-- No two endpoints have the same identity. -/
def Distinct (p : Pool) : Prop := (p.entries.map Entry.id).Nodup

/-- Entries with the same identity are the same. -/
theorem Distinct.eq (h : p.Distinct) {a b : Entry} (ha : a ∈ p.entries) (hb : b ∈ p.entries)
    (hid : a.id = b.id) : a = b :=
  List.inj_on_of_nodup_map h ha hb hid

/-- A lease finds no entry exactly when its endpoint is not in the pool. -/
theorem entry?_eq_none_iff : p.entry? lease = none ↔ ¬ p.Present lease.id := by
  simp [ entry?, Present]

/-- The entry that a lease finds is in the pool and has the identity of the lease. -/
theorem of_entry?_eq_some {entry : Entry} (h : p.entry? lease = some entry) :
    entry ∈ p.entries ∧ entry.id = lease.id :=
  ⟨List.mem_of_find?_eq_some h, by simpa using List.find?_some h⟩

/-! ## 3. Reports -/

/-- Nobody is left to be changed by a report on an endpoint that is not in the pool. -/
theorem change_of_not_present (h : ¬ p.Present lease.id) (f : Endpoint → Endpoint) :
    p.change lease f = p := by
  have hsame : p.entries.map (fun entry =>
      if entry.id == lease.id then { entry with endpoint := f entry.endpoint } else entry) =
        p.entries := by
    conv => rhs; rw [← List.map_id p.entries]
    refine List.map_congr_left fun entry hentry => ?_
    have hne : ¬ entry.id = lease.id := fun hid => h ⟨entry, hentry, hid⟩
    simp [hne]
  rw [change, hsame]

/-- **A report on an endpoint that is not in the pool changes nothing**; a failure is answered
with no. -/
theorem report_of_not_present (h : ¬ p.Present lease.id) :
    p.reportSuccess lease = p ∧ p.reportFailure lease = (false, p) := by
  refine ⟨change_of_not_present h _, ?_⟩
  rw [reportFailure, entry?_eq_none_iff.mpr h]

/-- A report touches the entries and nothing else of a pool. -/
theorem take_eq (p : Pool) (report : Report) :
    p.take report = { p with entries := (p.take report).entries } := by
  cases report with
  | success lease => rfl
  | failure lease =>
    simp only [take, reportFailure]
    split
    · rfl
    · split <;> rfl

/-- Changing the counter of one endpoint, entry by entry. -/
theorem entries_change (p : Pool) (lease : Lease) (f : Nat → Nat) :
    (p.change lease fun e => { e with failures := f e.failures }).entries =
      p.entries.filterMap fun entry =>
        if entry.id = lease.id then some (entry.withFailures (f entry.endpoint.failures))
        else some entry := by
  rw [change, ← List.filterMap_eq_map]
  refine List.filterMap_congr fun entry _ => ?_
  by_cases hid : entry.id = lease.id <;> simp [hid, Entry.withFailures]

/-- **What a report does to the entries of a pool.** -/
theorem entries_take (h : p.Distinct) (report : Report) :
    (p.take report).entries = p.entries.filterMap (Entry.afterReport p.threshold report) := by
  cases report with
  | success lease => exact entries_change p lease fun _ => 0
  | failure lease =>
    simp only [take, reportFailure]
    split
    · rename_i hnone
      have habsent := entry?_eq_none_iff.mp hnone
      symm
      rw [← List.filterMap_some (l := p.entries), List.filterMap_filterMap]
      refine List.filterMap_congr fun entry hentry => ?_
      exact if_neg fun hid => habsent ⟨entry, hentry, hid⟩
    · rename_i found hfound
      obtain ⟨hmem, hid⟩ := of_entry?_eq_some hfound
      -- whatever entry has the identity of the lease is the one that decided
      have honly : ∀ entry ∈ p.entries, entry.id = lease.id → entry = found :=
        fun entry hentry he => h.eq hentry hmem (he.trans hid.symm)
      split
      · rename_i hbelow
        rw [entries_change p lease (· + 1)]
        refine List.filterMap_congr fun entry hentry => ?_
        by_cases he : entry.id = lease.id
        · simp [Entry.afterReport, Report.lease, Report.effect, Report.failed,
            honly entry hentry he, hid, hbelow]
        · simp [Entry.afterReport, Report.lease, he]
      · rename_i hreached
        rw [← List.filterMap_eq_filter]
        refine List.filterMap_congr fun entry hentry => ?_
        by_cases he : entry.id = lease.id
        · simp [Entry.afterReport, Report.lease, Report.effect, Report.failed,
            honly entry hentry he, hid, hreached, Option.guard]
        · simp [Entry.afterReport, Report.lease, he, Option.guard]

/-- **Only the endpoint of the lease is touched**: all others stay, in the same order and with the
same counters. -/
theorem others_take (hdistinct : p.Distinct) (report : Report) :
    (p.take report).entries.filter (·.id ≠ report.lease.id) =
      p.entries.filter (·.id ≠ report.lease.id) := by
  rw [entries_take hdistinct, List.filter_filterMap, ← List.filterMap_eq_filter]
  refine List.filterMap_congr fun entry _ => ?_
  unfold Entry.afterReport
  by_cases hid : entry.id = report.lease.id
  · cases report.effect p.threshold entry.endpoint.failures <;>
      simp [hid, Option.guard]
  · simp [hid, Option.guard]

/-- **A failure is answered with yes exactly when it makes the endpoint leave.** -/
theorem reportFailure_fst_iff (p : Pool) (lease : Lease) :
    (p.reportFailure lease).1 = true ↔
      p.Present lease.id ∧ ¬ (p.reportFailure lease).2.Present lease.id := by
  unfold reportFailure
  split
  · simp
  · rename_i entry hfound
    obtain ⟨hmem, hid⟩ := of_entry?_eq_some hfound
    split
    · refine ⟨fun h => absurd h Bool.false_ne_true, fun ⟨_, hgone⟩ => absurd ?_ hgone⟩
      refine ⟨entry.withFailures (entry.endpoint.failures + 1), ?_, hid⟩
      rw [entries_change p lease (· + 1)]
      exact List.mem_filterMap.mpr ⟨entry, hmem, if_pos hid⟩
    · refine ⟨fun _ => ⟨⟨entry, hmem, hid⟩, ?_⟩, fun _ => rfl⟩
      rintro ⟨other, hother, hsame⟩
      have hne := (List.mem_filter.mp hother).2
      rw [hsame, bne_self_eq_false] at hne
      exact Bool.false_ne_true hne

end Pool

end Shortlist.Proxy
