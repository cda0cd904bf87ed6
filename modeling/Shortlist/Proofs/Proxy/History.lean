import Mathlib.Data.List.Infix
import Mathlib.Data.List.TakeWhile
import Shortlist.Proofs.Proxy.Reports

/-!
# The history of a pool

Any number of clients use a pool at the same time.  Only single steps exclude each other, so what
happens to the pool is a list of steps, in which the steps of the clients are interleaved; loading a
list of endpoints is one step for each endpoint.  Leases outlive the endpoints they were issued on, and
reports on them may come at any time.

The history of an endpoint is the list of the reports on its leases.  Two things are said about such a
list: whether it has a row of failures as long as the threshold, and how long the row at its end is.
`standing` runs a counter over the list as a pool does, and `standing_spec` says what the counter
counts; no pool plays a part in that.
-/

namespace Shortlist.Proxy

open Pool (Report)

/-! ## 1. Clients -/

/-- What a client asks of a pool. -/
inductive Call where
  | add (e : Endpoint)
  | load (text : String)
  | select (country : Option String) (draw : Nat)
  | report (r : Report)
deriving Repr, DecidableEq

/-- A use of a pool that nothing else can come in between. -/
inductive Step where
  | add (e : Endpoint)
  | select (country : Option String) (draw : Nat)
  | report (r : Report)
deriving Repr, DecidableEq

/-- The steps of a call. -/
def Call.steps : Call → List Step
  | .add e => [.add e]
  | .load text => (Endpoint.ofList text.toList).map .add
  | .select country draw => [.select country draw]
  | .report r => [.report r]

/-- Several lists are worked off side by side, and so far what was taken from them is `taken`, in this
order. -/
inductive Interleaving {α : Type} : (lists : List (List α)) → (taken : List α) → Prop where
  | stop {lists} : Interleaving lists []
  | take {before rest behind a taken} (h : Interleaving (before ++ rest :: behind) taken) :
      Interleaving (before ++ (a :: rest) :: behind) (a :: taken)

/-- Whatever was taken was in one of the lists. -/
theorem Interleaving.mem {α : Type} {lists : List (List α)} {taken : List α}
    (h : Interleaving lists taken) : ∀ a ∈ taken, ∃ l ∈ lists, a ∈ l := by
  induction h with
  | stop => exact fun _ ha => absurd ha List.not_mem_nil
  | @take before rest behind b taken _ ih =>
    intro a ha
    rcases List.mem_cons.mp ha with rfl | ha
    · exact ⟨a :: rest, by simp, List.mem_cons_self⟩
    · obtain ⟨l, hl, hal⟩ := ih a ha
      rcases List.mem_append.mp hl with hl | hl
      · exact ⟨l, List.mem_append_left _ hl, hal⟩
      · rcases List.mem_cons.mp hl with rfl | hl
        · exact ⟨b :: l, by simp, List.mem_cons_of_mem b hal⟩
        · exact ⟨l, by simp [hl], hal⟩

/-- Endpoints that were read from a line have no failures yet. -/
theorem Endpoint.failures_of_ofLine? {line : List Char} {e : Endpoint} (h : ofLine? line = some e) :
    e.failures = 0 := by
  unfold ofLine? at h
  split at h
  · split at h
    · cases h
    · obtain ⟨port, -, rfl⟩ := Option.map_eq_some_iff.mp h
      rfl
  · split at h
    · cases h
    · obtain ⟨port, -, rfl⟩ := Option.map_eq_some_iff.mp h
      rfl
  · cases h

/-- Endpoints that were read from a list have no failures yet. -/
theorem Endpoint.failures_of_mem_ofList {text : List Char} {e : Endpoint} (h : e ∈ ofList text) :
    e.failures = 0 := by
  obtain ⟨line, -, hline⟩ := List.mem_filterMap.mp h
  simp only at hline
  split at hline
  · cases hline
  · exact failures_of_ofLine? hline

/-! ## 2. What happens to a pool -/

namespace Pool

/-- The pool after a step. -/
def after (p : Pool) : Step → Pool
  | .add e => p.add e
  | .select country draw => (p.select country draw).2
  | .report r => p.take r

/-- The lease that a step hands out. -/
def leased (p : Pool) : Step → Option Lease
  | .select country draw => (p.select country draw).1
  | _ => none

/-- The pool after several steps. -/
def afterAll (p : Pool) (steps : List Step) : Pool := steps.foldl after p

/-- The leases that were handed out in several steps. -/
def issued (p : Pool) : List Step → List Lease
  | [] => []
  | s :: steps => (p.leased s).toList ++ issued (p.after s) steps

/-- A report is on one of the known leases. -/
def Knows (known : List Lease) : Step → Prop
  | .report r => r.lease ∈ known
  | _ => True

instance (known : List Lease) : ∀ s, Decidable (Knows known s)
  | .add _ => isTrue trivial
  | .select _ _ => isTrue trivial
  | .report r => inferInstanceAs (Decidable (r.lease ∈ known))

/-- All reports are on leases that the pool had handed out before. -/
def Genuine (p : Pool) (steps : List Step) : Prop :=
  ∀ i, (h : i < steps.length) → Knows (p.issued (steps.take i)) steps[i]

instance (p : Pool) (steps : List Step) : Decidable (p.Genuine steps) :=
  inferInstanceAs (Decidable (∀ i, (h : i < steps.length) → _))

@[simp] theorem leased_add (p : Pool) (e : Endpoint) : p.leased (.add e) = none := rfl

@[simp] theorem leased_report (p : Pool) (r : Report) : p.leased (.report r) = none := rfl

/-- A lease is handed out on an endpoint that is in the pool. -/
theorem present_of_leased {p : Pool} {country : Option String} {draw : Nat} {lease : Lease}
    (h : p.leased (.select country draw) = some lease) : p.Present lease.id := by
  simp only [leased, select] at h
  split at h
  · cases h
  · rename_i entry hentry
    obtain rfl := Option.some.inj h
    exact ⟨entry, (List.mem_filter.mp (List.mem_of_getElem? hentry)).1, rfl⟩

/-- Without an endpoint to choose from there is no lease. -/
theorem leased_of_candidates_eq_nil {p : Pool} {country : Option String} (draw : Nat)
    (h : p.candidates country = []) : p.leased (.select country draw) = none := by
  simp [leased, select, h]

theorem afterAll_concat (p : Pool) (steps : List Step) (s : Step) :
    p.afterAll (steps ++ [s]) = (p.afterAll steps).after s := by
  simp [afterAll]

theorem issued_concat (s : Step) :
    ∀ (steps : List Step) (p : Pool),
      p.issued (steps ++ [s]) = p.issued steps ++ ((p.afterAll steps).leased s).toList
  | [], p => by simp [issued, afterAll]
  | t :: steps, p => by
    rw [List.cons_append, issued, issued_concat s steps, issued, List.append_assoc]
    rfl

/-- A genuine history was genuine before its last step, which knows all leases issued by then. -/
theorem Genuine.of_concat {p : Pool} {steps : List Step} {s : Step}
    (h : p.Genuine (steps ++ [s])) : p.Genuine steps ∧ Knows (p.issued steps) s := by
  constructor
  · intro i hi
    have hknows := h i (by rw [List.length_append]; omega)
    rwa [List.take_append_of_le_length (by omega), List.getElem_append_left hi] at hknows
  · have hknows := h steps.length (by simp)
    rwa [List.take_left, List.getElem_concat_length rfl] at hknows

/-- Loading a list of endpoints, if nothing comes in between, is its steps. -/
theorem load_eq_afterAll (p : Pool) (text : String) :
    (p.load text).1 = p.afterAll (Call.load text).steps := by
  simp only [load, afterAll, Call.steps, List.foldl_map]
  rfl

end Pool

/-! ## 3. The history of an endpoint -/

/-- The endpoints that were added, in order.  Their places are their identities. -/
def added (steps : List Step) : List Endpoint :=
  steps.filterMap fun
    | .add e => some e
    | _ => none

/-- The reports on the endpoint with an identity, in order. -/
def reportsOn (id : Nat) (steps : List Step) : List Report :=
  steps.filterMap fun
    | .report r => if r.lease.id = id then some r else none
    | _ => none

/-- How many failures stand at the end, behind the last success. -/
def failuresInARow (rs : List Report) : Nat := (rs.reverse.takeWhile Report.failed).length

/-- There were once as many failures in a row as the threshold. -/
def WornOut (threshold : Nat) (rs : List Report) : Prop :=
  ∃ row, row <:+: rs ∧ row.length = threshold ∧ ∀ r ∈ row, r.failed = true

@[simp] theorem added_concat_add (steps : List Step) (e : Endpoint) :
    added (steps ++ [.add e]) = added steps ++ [e] := by simp [added]

@[simp] theorem added_concat_select (steps : List Step) (country : Option String) (draw : Nat) :
    added (steps ++ [.select country draw]) = added steps := by simp [added]

@[simp] theorem added_concat_report (steps : List Step) (r : Report) :
    added (steps ++ [.report r]) = added steps := by simp [added]

@[simp] theorem reportsOn_concat_add (id : Nat) (steps : List Step) (e : Endpoint) :
    reportsOn id (steps ++ [.add e]) = reportsOn id steps := by simp [reportsOn]

@[simp] theorem reportsOn_concat_select (id : Nat) (steps : List Step) (country : Option String)
    (draw : Nat) : reportsOn id (steps ++ [.select country draw]) = reportsOn id steps := by
  simp [reportsOn]

theorem reportsOn_concat_report (id : Nat) (steps : List Step) (r : Report) :
    reportsOn id (steps ++ [.report r]) =
      if r.lease.id = id then reportsOn id steps ++ [r] else reportsOn id steps := by
  by_cases hid : r.lease.id = id <;> simp [reportsOn, hid]

/-- One more report behind a history. -/
theorem failuresInARow_concat (rs : List Report) (r : Report) :
    failuresInARow (rs ++ [r]) = if r.failed then failuresInARow rs + 1 else 0 := by
  cases hfailed : r.failed <;> simp [failuresInARow, hfailed]

/-- A history ends in so many failures exactly when it has that many failures in a row at its end. -/
theorem exists_suffix_iff {n : Nat} {rs : List Report} :
    (∃ row, row <:+ rs ∧ row.length = n ∧ ∀ r ∈ row, r.failed = true) ↔ n ≤ failuresInARow rs := by
  constructor
  · rintro ⟨row, ⟨front, rfl⟩, rfl, hrow⟩
    rw [failuresInARow, List.reverse_append, List.takeWhile_append_of_pos (by simpa using hrow),
      List.length_append, List.length_reverse]
    exact Nat.le_add_right _ _
  · intro hn
    have hfront : rs.reverse.takeWhile Report.failed <+: rs.reverse := List.takeWhile_prefix _
    refine ⟨((rs.reverse.takeWhile Report.failed).take n).reverse, ?_, ?_, ?_⟩
    · rw [← List.reverse_prefix, List.reverse_reverse]
      exact (List.take_prefix _ _).trans hfront
    · rw [List.length_reverse, List.length_take]
      exact Nat.min_eq_left hn
    · intro r hr
      exact List.mem_takeWhile_imp (List.mem_of_mem_take (List.mem_reverse.mp hr))

/-- A row of failures stays a row of failures. -/
theorem WornOut.append {threshold : Nat} {rs : List Report} (h : WornOut threshold rs)
    (more : List Report) : WornOut threshold (rs ++ more) :=
  h.imp fun _ hrow => ⟨hrow.1.trans (List.prefix_append rs more).isInfix, hrow.2⟩

/-- One more report makes a row of failures only if it is the last of them. -/
theorem wornOut_concat {threshold : Nat} {rs : List Report} {r : Report} :
    WornOut threshold (rs ++ [r]) ↔
      WornOut threshold rs ∨ threshold ≤ failuresInARow (rs ++ [r]) := by
  rw [← exists_suffix_iff]
  unfold WornOut
  simp only [List.infix_concat_iff]
  constructor
  · rintro ⟨row, h | h, hrow⟩
    · exact Or.inr ⟨row, h, hrow⟩
    · exact Or.inl ⟨row, h, hrow⟩
  · rintro (⟨row, h, hrow⟩ | ⟨row, h, hrow⟩)
    · exact ⟨row, Or.inr h, hrow⟩
    · exact ⟨row, Or.inl h, hrow⟩

/-! ## 4. Running a counter -/

/-- The counter of an endpoint after these reports; none once it made the endpoint leave. -/
def standing (threshold : Nat) (rs : List Report) : Option Nat :=
  rs.foldlM (fun failures r => r.effect threshold failures) 0

theorem standing_concat (threshold : Nat) (rs : List Report) (r : Report) :
    standing threshold (rs ++ [r]) = (standing threshold rs).bind (r.effect threshold) := by
  simp [standing]

/-- **What a counter counts.**  It is gone once there was a row of failures as long as the threshold,
and otherwise it is the row at the end. -/
theorem standing_spec {threshold : Nat} (hpos : 0 < threshold) (rs : List Report) :
    (standing threshold rs = none ∧ WornOut threshold rs) ∨
      (standing threshold rs = some (failuresInARow rs) ∧ ¬ WornOut threshold rs ∧
        failuresInARow rs < threshold) := by
  induction rs using List.reverseRecOn with
  | nil =>
    refine Or.inr ⟨rfl, ?_, hpos⟩
    rintro ⟨row, hrow, rfl, -⟩
    rw [List.eq_nil_of_infix_nil hrow] at hpos
    exact Nat.lt_irrefl 0 hpos
  | append_singleton rs r ih =>
    rw [standing_concat, wornOut_concat]
    rcases ih with ⟨hgone, hworn⟩ | ⟨hthere, hnot, -⟩
    · exact Or.inl ⟨by rw [hgone]; rfl, Or.inl hworn⟩
    · rw [hthere, Option.bind_some, Report.effect, failuresInARow_concat]
      cases r.failed with
      | false =>
        refine Or.inr ⟨rfl, ?_, hpos⟩
        rintro (h | h)
        · exact hnot h
        · exact absurd (Nat.lt_of_lt_of_le hpos h) (Nat.lt_irrefl 0)
      | true =>
        simp only [if_true]
        by_cases hbelow : failuresInARow rs + 1 < threshold
        · rw [if_pos hbelow]
          exact Or.inr ⟨rfl, fun h => h.elim hnot (Nat.not_le.mpr hbelow), hbelow⟩
        · rw [if_neg hbelow]
          exact Or.inl ⟨rfl, Or.inr (Nat.not_lt.mp hbelow)⟩

end Shortlist.Proxy
