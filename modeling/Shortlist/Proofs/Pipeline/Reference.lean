import Mathlib.Data.List.Basic
import Shortlist.Proofs.Pipeline.Stages

/-!
# The usual pipeline against a reference without memory

The usual pipeline threads the links it has seen through a whole run.  Here it is compared with a
reference that keeps no state at all: `expected` looks at the records that were pushed earlier, as
they came in, and says what becomes of the next one.

The invariant that carries the comparison is `Remembers`: the links that the dedup stage holds are
exactly the nonempty links of the earlier records after cleaning.  It speaks about ALL earlier
records, because a record that scoring drops has passed the dedup stage by then and its link stays.
`processItem_remembers` is the step, `afterAll_remembers` the run.
-/

namespace Shortlist.Pipeline

/-! ## 1. Using a pipeline -/

/-- One use of a pipeline. -/
inductive Use where
  | item (r : Record)
  | batch (rs : List Record)
  | reset
deriving Repr, DecidableEq

/-- The records pushed since the last reset, when `earlier` were pushed before this use. -/
def Use.extend (earlier : List Record) : Use → List Record
  | .item r => earlier ++ [r]
  | .batch rs => earlier ++ rs
  | .reset => []

/-- The pipeline after a use. -/
def after (p : Pipeline) : Use → Pipeline
  | .item r => (p.processItem r).2
  | .batch rs => (p.processBatch rs).pipeline
  | .reset => p.reset

/-- The pipeline after several uses, one after another. -/
def afterAll (p : Pipeline) (uses : List Use) : Pipeline := uses.foldl after p

/-- The records pushed since the last reset, or since the beginning if there was none. -/
def sinceReset (uses : List Use) : List Record := uses.foldl Use.extend []

/-! ## 2. The reference -/

/-- What becomes of a record when `earlier` were pushed before it.  Every condition is about the
CLEANED records, and the first one that holds decides. -/
def expected (j : Judges) (earlier : List Record) (r : Record) : Outcome :=
  if r.clean.link ≠ "" ∧ ∃ e ∈ earlier, e.clean.link = r.clean.link then .drop .duplicate
  else if j.scorer.isVetoed r.clean.title then .drop .vetoed
  else if j.scorer.scoreRecord r.clean = 0 then .drop .irrelevant
  else .keep (j.categorizer.categorize
    { r.clean with relevanceScore := some (UInt8.ofNat (j.scorer.scoreRecord r.clean)) })

/-- What becomes of the records of a batch: of each one behind `earlier` and those in front of it. -/
def expectedAll (j : Judges) (earlier rs : List Record) : List Outcome :=
  rs.mapIdx fun i r => expected j (earlier ++ rs.take i) r

/-- The counts of a batch with these outcomes. -/
def tally (outcomes : List Outcome) : Stats where
  seen := outcomes.length
  kept := (outcomes.flatMap Outcome.kept).length
  duplicate := outcomes.count (.drop .duplicate)
  vetoed := outcomes.count (.drop .vetoed)
  irrelevant := outcomes.count (.drop .irrelevant)

/-- The first record of a batch is one more earlier record for all others. -/
theorem expectedAll_cons (j : Judges) (earlier : List Record) (r : Record) (rs : List Record) :
    expectedAll j earlier (r :: rs) = expected j earlier r :: expectedAll j (earlier ++ [r]) rs := by
  simp [expectedAll, List.mapIdx_cons]

/-- Counting one more outcome in front. -/
theorem tally_cons (o : Outcome) (os : List Outcome) : tally (o :: os) = (tally os).count o := by
  match o with
  | .keep r => simp [tally, Stats.count, Outcome.kept, Nat.add_comm]
  | .drop .duplicate => simp [tally, Stats.count, Outcome.kept]
  | .drop .vetoed => simp [tally, Stats.count, Outcome.kept]
  | .drop .irrelevant => simp [tally, Stats.count, Outcome.kept]

/-- **A record that is kept** has a score from 1 to 100, the one of the cleaned record, and is
otherwise that record with its category fields filled. -/
theorem expected_keep {j : Judges} {earlier : List Record} {r k : Record}
    (h : expected j earlier r = .keep k) :
    ∃ score : UInt8, k.relevanceScore = some score ∧
      score.toNat = j.scorer.scoreRecord r.clean ∧ 1 ≤ score.toNat ∧ score.toNat ≤ 100 ∧
      k.SamePosting r.clean := by
  unfold expected at h
  split at h
  · cases h
  · split at h
    · cases h
    · split at h
      · cases h
      · rename_i hscore
        have hfits := j.scorer.toNat_ofNat_scoreRecord r.clean
        cases h
        refine ⟨_, j.categorizer.relevanceScore_categorize _, hfits, ?_, ?_,
          (j.categorizer.categorize_samePosting _).of_score⟩
        · rw [hfits]
          exact Nat.pos_of_ne_zero hscore
        · rw [hfits]
          exact j.scorer.scoreRecord_le r.clean

/-! ## 3. What the pipeline remembers -/

/-- The pipeline is the usual one, and its dedup stage holds exactly the nonempty links of the
earlier records after cleaning. -/
def Remembers (p : Pipeline) (j : Judges) (earlier : List Record) : Prop :=
  ∃ seen : SeenLinks, p = ⟨[.cleaning, .dedup seen, .scoring j.scorer, .categorizing j.categorizer]⟩ ∧
    ∀ link, link ∈ seen.links ↔ link ≠ "" ∧ ∃ e ∈ earlier, e.clean.link = link

/-- At the beginning there is nothing to remember. -/
theorem standard_remembers (j : Judges) : (standard j).Remembers j [] :=
  ⟨SeenLinks.empty, rfl, fun link => by simp [SeenLinks.empty]⟩

/-- A reset leaves the pipeline as it was at the beginning. -/
theorem Remembers.reset {p : Pipeline} {j : Judges} {earlier : List Record}
    (h : p.Remembers j earlier) : p.reset.Remembers j [] := by
  obtain ⟨seen, rfl, -⟩ := h
  exact standard_remembers j

/-- The usual pipeline, stage by stage: the dedup stage takes note of the cleaned record before
scoring looks at it. -/
theorem processItem_standard (j : Judges) (seen : SeenLinks) (r : Record) :
    (Pipeline.mk [.cleaning, .dedup seen, .scoring j.scorer, .categorizing j.categorizer]).processItem
        r =
      (if (seen.offer r.clean).1 then
          match j.scorer.judge r.clean with
          | .keep scored => .keep (j.categorizer.categorize scored)
          | .drop reason => .drop reason
        else .drop .duplicate,
        ⟨[.cleaning, .dedup (seen.offer r.clean).2, .scoring j.scorer,
          .categorizing j.categorizer]⟩) := by
  simp only [processItem, processThrough, Stage.process]
  by_cases hpass : (seen.offer r.clean).1 = true
  · simp only [hpass, if_true]
    cases j.scorer.judge r.clean <;> rfl
  · simp only [hpass]
    rfl

/-- **The step.**  A record gets the outcome that the reference expects, and is remembered from then
on whatever that outcome was. -/
theorem processItem_remembers {p : Pipeline} {j : Judges} {earlier : List Record}
    (h : p.Remembers j earlier) (r : Record) :
    (p.processItem r).1 = expected j earlier r ∧
      (p.processItem r).2.Remembers j (earlier ++ [r]) := by
  obtain ⟨seen, rfl, hseen⟩ := h
  have hpass : (seen.offer r.clean).1 = true ↔
      ¬ (r.clean.link ≠ "" ∧ ∃ e ∈ earlier, e.clean.link = r.clean.link) := by
    rw [SeenLinks.offer_fst_eq_true_iff, hseen]
    constructor
    · rintro (hempty | hnew) ⟨hne, he⟩
      · exact hne hempty
      · exact hnew ⟨hne, he⟩
    · intro hnot
      exact or_iff_not_imp_left.mpr fun hne hseen => hnot ⟨hne, hseen.2⟩
  rw [processItem_standard]
  refine ⟨?_, (seen.offer r.clean).2, rfl, fun link => ?_⟩
  · simp only [expected, Scorer.judge_eq]
    by_cases hdup : r.clean.link ≠ "" ∧ ∃ e ∈ earlier, e.clean.link = r.clean.link
    · rw [if_neg (fun hp => hpass.mp hp hdup), if_pos hdup]
    · rw [if_pos (hpass.mpr hdup), if_neg hdup]
      split_ifs <;> rfl
  · rw [SeenLinks.mem_links_offer, hseen]
    simp only [List.mem_append, List.mem_singleton]
    constructor
    · rintro (⟨hne, e, he, heq⟩ | ⟨rfl, hne⟩)
      · exact ⟨hne, e, Or.inl he, heq⟩
      · exact ⟨hne, r, Or.inr rfl, rfl⟩
    · rintro ⟨hne, e, he | rfl, heq⟩
      · exact Or.inl ⟨hne, e, he, heq⟩
      · exact Or.inr ⟨heq.symm, hne⟩

/-- **A batch** is its records one after another. -/
theorem processBatch_remembers {j : Judges} :
    ∀ (rs : List Record) {p : Pipeline} {earlier : List Record}, p.Remembers j earlier →
      (p.processBatch rs).kept = (expectedAll j earlier rs).flatMap Outcome.kept ∧
        (p.processBatch rs).stats = tally (expectedAll j earlier rs) ∧
        (p.processBatch rs).pipeline.Remembers j (earlier ++ rs)
  | [], p, earlier, h => by
    rw [List.append_nil]
    exact ⟨rfl, rfl, h⟩
  | r :: rs, p, earlier, h => by
    obtain ⟨houtcome, hnext⟩ := processItem_remembers h r
    obtain ⟨hkept, hstats, hrest⟩ := processBatch_remembers rs hnext
    rw [List.append_assoc, List.singleton_append] at hrest
    simp only [processBatch]
    refine ⟨?_, ?_, hrest⟩
    · rw [hkept, houtcome, expectedAll_cons, List.flatMap_cons]
    · rw [hstats, houtcome, expectedAll_cons, tally_cons]

/-- One use keeps the invariant. -/
theorem after_remembers {p : Pipeline} {j : Judges} {earlier : List Record}
    (h : p.Remembers j earlier) (use : Use) : (p.after use).Remembers j (use.extend earlier) := by
  cases use with
  | item r => exact (processItem_remembers h r).2
  | batch rs => exact (processBatch_remembers rs h).2.2
  | reset => exact h.reset

/-- **The run.**  After any uses the pipeline remembers the records since the last reset. -/
theorem afterAll_remembers {j : Judges} :
    ∀ (uses : List Use) {p : Pipeline} {earlier : List Record}, p.Remembers j earlier →
      (p.afterAll uses).Remembers j (uses.foldl Use.extend earlier)
  | [], _, _, h => h
  | use :: uses, _, _, h => afterAll_remembers uses (after_remembers h use)

/-! ## 4. The comparison -/

/-- **The usual pipeline agrees with the reference** on the next record and on the next batch,
whatever it was used for before: only the records since the last reset count.  A record that is kept
has a score from 1 to 100 and is otherwise the cleaned record with its category fields filled. -/
theorem standard_agrees_with_reference (j : Judges) (uses : List Use) :
    (∀ r, (((standard j).afterAll uses).processItem r).1 = expected j (sinceReset uses) r) ∧
      (∀ rs,
        (((standard j).afterAll uses).processBatch rs).kept =
            (expectedAll j (sinceReset uses) rs).flatMap Outcome.kept ∧
          (((standard j).afterAll uses).processBatch rs).stats =
            tally (expectedAll j (sinceReset uses) rs)) ∧
      ∀ r k, expected j (sinceReset uses) r = .keep k →
        ∃ score : UInt8, k.relevanceScore = some score ∧
          score.toNat = j.scorer.scoreRecord r.clean ∧ 1 ≤ score.toNat ∧ score.toNat ≤ 100 ∧
          k.SamePosting r.clean := by
  have h : ((standard j).afterAll uses).Remembers j (sinceReset uses) :=
    afterAll_remembers uses (standard_remembers j)
  refine ⟨fun r => (processItem_remembers h r).1, fun rs => ?_, fun r k hk => expected_keep hk⟩
  obtain ⟨hkept, hstats, -⟩ := processBatch_remembers rs h
  exact ⟨hkept, hstats⟩

end Shortlist.Pipeline
