import Shortlist.Proofs.Pipeline.Reference

/-!
# Batches

A batch is its records one after another, and nothing else: what is kept of it and what is counted can
be read off the outcomes of the single records, each of them pushed behind those in front of it.  This
holds for any stages and whatever they remember, so the whole memory of a run is in the pipeline that a
batch leaves behind.

`processBatch_eq` is the comparison, by induction on the records.  From there on nothing looks at a
pipeline any more: that batches add up is a fact about appended lists of outcomes, and that every
record is accounted for is one about the tally of such a list.
-/

namespace Shortlist

/-- Whether the record was kept. -/
def Outcome.isKept : Outcome → Bool
  | .keep _ => true
  | .drop _ => false

namespace Pipeline

/-! ## 1. Records one after another -/

/-- The pipeline after some records that are pushed one by one. -/
def afterItems (p : Pipeline) (rs : List Record) : Pipeline := p.afterAll (rs.map .item)

/-- What becomes of each of some records when it is pushed behind those in front of it. -/
def outcomes (p : Pipeline) (rs : List Record) : List Outcome :=
  rs.mapIdx fun i r => ((p.afterItems (rs.take i)).processItem r).1

section OneAfterAnother

variable (p : Pipeline) (r : Record) (rs a b : List Record)

theorem afterItems_cons : p.afterItems (r :: rs) = (p.processItem r).2.afterItems rs := rfl

theorem afterItems_append : p.afterItems (a ++ b) = (p.afterItems a).afterItems b := by
  simp only [afterItems, afterAll, List.map_append, List.foldl_append]

/-- The first record, and the others behind it. -/
theorem outcomes_cons :
    p.outcomes (r :: rs) = (p.processItem r).1 :: (p.processItem r).2.outcomes rs := by
  simp only [outcomes, List.mapIdx_cons, List.take_zero, List.take_succ_cons]
  rfl

/-- Some records, and further ones behind them. -/
theorem outcomes_append : p.outcomes (a ++ b) = p.outcomes a ++ (p.afterItems a).outcomes b := by
  induction a generalizing p with
  | nil => rfl
  | cons r a ih =>
    rw [List.cons_append, outcomes_cons, outcomes_cons, List.cons_append, ih, afterItems_cons]

theorem length_outcomes : (p.outcomes rs).length = rs.length := List.length_mapIdx

/-- **A batch is its records one after another.** -/
theorem processBatch_eq :
    p.processBatch rs =
      ⟨(p.outcomes rs).flatMap Outcome.kept, tally (p.outcomes rs), p.afterItems rs⟩ := by
  induction rs generalizing p with
  | nil => rfl
  | cons r rs ih =>
    rw [outcomes_cons, tally_cons, List.flatMap_cons, afterItems_cons, processBatch]
    simp only [ih]

end OneAfterAnother

/-! ## 2. Outcomes and their tally -/

/-- The kept records are the kept outcomes, in their order. -/
theorem map_keep_flatMap_kept (os : List Outcome) :
    (os.flatMap Outcome.kept).map .keep = os.filter Outcome.isKept := by
  induction os with
  | nil => rfl
  | cons o os ih =>
    rw [List.flatMap_cons, List.map_append, ih]
    cases o with
    | keep k => rfl
    | drop reason => rfl

/-- Each reason is counted by itself. -/
theorem dropped_tally (os : List Outcome) (reason : DropReason) :
    (tally os).dropped reason = os.count (.drop reason) := by
  cases reason <;> rfl

/-- **Every outcome is counted once**, as a kept record or under one reason. -/
theorem seen_tally (os : List Outcome) :
    (tally os).seen = (tally os).kept + (tally os).totalDropped := by
  induction os with
  | nil => rfl
  | cons o os ih =>
    rw [tally_cons]
    rcases o with k | _ | _ | _
    all_goals
      simp only [Stats.count, Stats.totalDropped] at ih ⊢
      omega

/-! ## 3. The law of batches -/

/-- A batch gives what two others give together: `second` is the one that was run behind `first`. -/
structure BatchResult.Joins (first second both : BatchResult) : Prop where
  kept : both.kept = first.kept ++ second.kept
  seenCount : both.stats.seen = first.stats.seen + second.stats.seen
  keptCount : both.stats.kept = first.stats.kept + second.stats.kept
  droppedCount : ∀ reason, both.stats.dropped reason =
    first.stats.dropped reason + second.stats.dropped reason
  /-- What the stages remember afterwards is the same. -/
  pipeline : both.pipeline = second.pipeline

/-- A batch of records accounts for each of them. -/
structure AccountsFor (p : Pipeline) (rs : List Record) : Prop where
  seenCount : (p.processBatch rs).stats.seen = rs.length
  balance : (p.processBatch rs).stats.seen =
    (p.processBatch rs).stats.kept + (p.processBatch rs).stats.totalDropped
  keptCount : (p.processBatch rs).stats.kept = (p.processBatch rs).kept.length
  /-- The kept records are those of the outcomes that keep one, in the order of the batch and at most
  one for each of its records. -/
  kept : (p.processBatch rs).kept.map .keep = (p.outcomes rs).filter Outcome.isKept
  /-- There is one outcome for each record. -/
  outcomes : (p.outcomes rs).length = rs.length
  droppedCount : ∀ reason,
    (p.processBatch rs).stats.dropped reason = (p.outcomes rs).count (.drop reason)

/-- **Batches add up and account for every record**, with any stages, whichever scorers and categorizers
they have and whatever they remember.  A batch may be split anywhere: the second part behind the first
one gives what the whole batch gives, in kept records, in counts, and in what the stages remember
afterwards.  Every record of a batch is counted once, as kept or under the reason for which it was
dropped. -/
theorem batches_add_up (p : Pipeline) :
    (∀ a b, BatchResult.Joins (p.processBatch a) ((p.processBatch a).pipeline.processBatch b)
      (p.processBatch (a ++ b))) ∧
    ∀ rs, p.AccountsFor rs := by
  constructor
  · intro a b
    have hfirst := p.processBatch_eq a
    have hsecond := (p.afterItems a).processBatch_eq b
    have hboth := p.processBatch_eq (a ++ b)
    rw [outcomes_append, afterItems_append] at hboth
    rw [hboth, hfirst, hsecond]
    constructor
    · exact List.flatMap_append
    · exact List.length_append
    · simp only [tally, List.flatMap_append, List.length_append]
    · intro reason
      simp only [dropped_tally, List.count_append]
    · rfl
  · intro rs
    have hbatch := p.processBatch_eq rs
    constructor
    · rw [hbatch]
      exact p.length_outcomes rs
    · rw [hbatch]
      exact seen_tally _
    · rw [hbatch]
      rfl
    · rw [hbatch]
      exact map_keep_flatMap_kept _
    · exact p.length_outcomes rs
    · intro reason
      rw [hbatch]
      exact dropped_tally _ reason

end Pipeline

end Shortlist
