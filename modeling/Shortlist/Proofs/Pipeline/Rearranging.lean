import Mathlib.Logic.Relation
import Shortlist.Proofs.Pipeline.Reference
import Shortlist.Proofs.Record.Cleaning

/-!
# Pipelines with their stages rearranged

Some changes to the list of stages cannot be noticed from outside: a categorizing stage may change places
with a scoring or a dedup stage next to it, and of two stages of the same kind in a row the second one
may go.

The two pipelines are compared step by step.  `Interchangeable` says which short runs of stages may stand
for each other, and it is about stages WITH what they remember: two dedup stages in a row always
remember the same links, because the second one is shown just those records that the first one lets
pass, and these are the ones whose links the first one takes down.  So the relation holds again after
every record (`Interchangeable.process`), whatever stands in front of the short run and behind it
(`Rearranged.process`).
-/

namespace Shortlist

/-! ## 1. One stage behind another -/

/-- A record that is refused leaves no link behind. -/
theorem SeenLinks.offer_snd_of_refused {s : SeenLinks} {r : Record} (h : (s.offer r).1 = false) :
    (s.offer r).2 = s := by
  unfold offer at h ⊢
  by_cases hempty : r.link = ""
  · simp [hempty]
  · by_cases hseen : r.link ∈ s.links
    · simp [hempty, hseen]
    · simp [hempty, hseen] at h

/-- Scoring does not look at the fields that categorizing fills, nor the other way round. -/
theorem Scorer.judge_categorize (s : Scorer) (c : Categorizer) (r : Record) :
    s.judge (c.categorize r) =
      match s.judge r with
      | .keep scored => .keep (c.categorize scored)
      | .drop reason => .drop reason := by
  have hveto : s.isVetoed (c.categorize r).title = s.isVetoed r.title := rfl
  have hscore : s.scoreRecord (c.categorize r) = s.scoreRecord r := rfl
  rw [Scorer.judge_eq, Scorer.judge_eq, hveto, hscore]
  split_ifs <;> rfl

/-- Scoring a second time changes nothing. -/
theorem Scorer.judge_judge {s : Scorer} {r scored : Record} (h : s.judge r = .keep scored) :
    s.judge scored = .keep scored := by
  rw [Scorer.judge_eq] at h
  split_ifs at h with hveto hzero
  obtain rfl := Outcome.keep.inj h
  rw [Scorer.judge_eq, if_neg hveto]
  exact if_neg hzero

/-- What becomes of a record behind some stages and then behind further ones. -/
theorem processThrough_append (front back : List Stage) (r : Record) :
    processThrough (front ++ back) r =
      match processThrough front r with
      | (.keep k, front) => ((processThrough back k).1, front ++ (processThrough back k).2)
      | (.drop reason, front) => (.drop reason, front ++ back) := by
  induction front generalizing r with
  | nil => rfl
  | cons s front ih =>
    simp only [List.cons_append, processThrough]
    rcases s.process r with ⟨k | reason, s'⟩
    · simp only [ih]
      rcases processThrough front k with ⟨k' | reason, front'⟩ <;> rfl
    · rfl

/-! ## 2. Runs of stages that may stand for each other -/

/-- Two short runs of stages of which the first one may be replaced by the second one. -/
inductive Interchangeable : List Stage → List Stage → Prop where
  | scoring (s : Scorer) (c : Categorizer) :
    Interchangeable [.categorizing c, .scoring s] [.scoring s, .categorizing c]
  | dedup (seen : SeenLinks) (c : Categorizer) :
    Interchangeable [.categorizing c, .dedup seen] [.dedup seen, .categorizing c]
  | twice (s : Stage) : Interchangeable [s, s] [s]

/-- The same records come out of both, and afterwards they may still stand for each other. -/
theorem Interchangeable.process {a b : List Stage} (h : Interchangeable a b) (r : Record) :
    (processThrough a r).1 = (processThrough b r).1 ∧
      Interchangeable (processThrough a r).2 (processThrough b r).2 := by
  cases h with
  | scoring s c =>
    simp only [processThrough, Stage.process, Scorer.judge_categorize]
    cases s.judge r <;> exact ⟨rfl, .scoring s c⟩
  | dedup seen c =>
    have hoffer : seen.offer (c.categorize r) = seen.offer r := rfl
    simp only [processThrough, Stage.process, hoffer]
    cases (seen.offer r).1 <;> exact ⟨rfl, .dedup _ c⟩
  | twice s =>
    cases s with
    | cleaning =>
      simp only [processThrough, Stage.process, Record.clean_clean]
      exact ⟨trivial, .twice _⟩
    | categorizing c => exact ⟨rfl, .twice _⟩
    | scoring s =>
      simp only [processThrough, Stage.process]
      cases hjudge : s.judge r with
      | keep scored =>
        simp only [Scorer.judge_judge hjudge]
        exact ⟨trivial, .twice _⟩
      | drop reason => exact ⟨rfl, .twice _⟩
    | dedup seen =>
      simp only [processThrough, Stage.process]
      cases hpass : (seen.offer r).1 with
      | true =>
        simp only [if_true, hpass]
        exact ⟨trivial, .twice _⟩
      | false =>
        simp only [SeenLinks.offer_snd_of_refused hpass]
        exact ⟨rfl, .twice _⟩

/-- One list of stages becomes the other one when a short run inside of it is replaced. -/
def Rearranged (a b : List Stage) : Prop :=
  ∃ front run run' back, Interchangeable run run' ∧ a = front ++ (run ++ back) ∧ b = front ++ (run' ++ back)

namespace Rearranged

variable {a b : List Stage}

/-- **One record.**  Both lists do the same with it, and are rearranged afterwards. -/
theorem process (h : Rearranged a b) (r : Record) :
    (processThrough a r).1 = (processThrough b r).1 ∧
      Rearranged (processThrough a r).2 (processThrough b r).2 := by
  obtain ⟨front, run, run', back, hrun, rfl, rfl⟩ := h
  simp only [processThrough_append front]
  rcases processThrough front r with ⟨k | reason, front'⟩
  · obtain ⟨hsame, hnext⟩ := hrun.process k
    simp only [processThrough_append run, processThrough_append run']
    rcases hp : processThrough run k with ⟨o, next⟩
    rcases hq : processThrough run' k with ⟨o', next'⟩
    rw [hp, hq] at hsame hnext
    obtain rfl : o = o' := hsame
    cases o with
    | keep k => exact ⟨rfl, front', next, next', _, hnext, rfl, rfl⟩
    | drop reason => exact ⟨rfl, front', next, next', back, hnext, rfl, rfl⟩
  · exact ⟨rfl, front', run, run', back, hrun, rfl, rfl⟩

/-- Forgetting leaves stages rearranged. -/
theorem fresh (h : Rearranged a b) : Rearranged (a.map Stage.fresh) (b.map Stage.fresh) := by
  obtain ⟨front, run, run', back, hrun, rfl, rfl⟩ := h
  refine ⟨front.map Stage.fresh, run.map Stage.fresh, run'.map Stage.fresh, back.map Stage.fresh, ?_,
    by simp, by simp⟩
  cases hrun with
  | scoring s c => exact .scoring s c
  | dedup seen c => exact .dedup _ c
  | twice s => exact .twice _

end Rearranged

/-! ## 3. What pipelines answer -/

namespace Pipeline

/-- What a pipeline answers to a use. -/
inductive Answer where
  | item (outcome : Outcome)
  | batch (kept : List Record) (stats : Stats)
  | reset
deriving Repr, DecidableEq

/-- The answer to a use. -/
def answer (p : Pipeline) : Use → Answer
  | .item r => .item (p.processItem r).1
  | .batch rs => .batch (p.processBatch rs).kept (p.processBatch rs).stats
  | .reset => .reset

/-- The answers to several uses, one after another. -/
def answers (p : Pipeline) : List Use → List Answer
  | [] => []
  | use :: uses => p.answer use :: (p.after use).answers uses

/-- Two pipelines whose stages are rearranged. -/
def Resembles (p q : Pipeline) : Prop := Rearranged p.stages q.stages

namespace Resembles

variable {p q : Pipeline}

/-- One record. -/
theorem processItem (h : p.Resembles q) (r : Record) :
    (p.processItem r).1 = (q.processItem r).1 ∧ (p.processItem r).2.Resembles (q.processItem r).2 :=
  Rearranged.process h r

/-- A batch, record by record. -/
theorem processBatch :
    ∀ (rs : List Record) {p q : Pipeline}, p.Resembles q →
      (p.processBatch rs).kept = (q.processBatch rs).kept ∧
        (p.processBatch rs).stats = (q.processBatch rs).stats ∧
        (p.processBatch rs).pipeline.Resembles (q.processBatch rs).pipeline
  | [], _, _, h => ⟨rfl, rfl, h⟩
  | r :: rs, p, q, h => by
    obtain ⟨hsame, hnext⟩ := h.processItem r
    obtain ⟨hkept, hstats, hrest⟩ := processBatch rs hnext
    simp only [Pipeline.processBatch, hsame, hkept, hstats]
    exact ⟨trivial, trivial, hrest⟩

/-- **One use.**  Both pipelines give the same answer, and still resemble each other. -/
theorem after (h : p.Resembles q) (use : Use) :
    p.answer use = q.answer use ∧ (p.after use).Resembles (q.after use) := by
  cases use with
  | item r =>
    obtain ⟨hsame, hnext⟩ := h.processItem r
    exact ⟨congrArg Answer.item hsame, hnext⟩
  | batch rs =>
    obtain ⟨hkept, hstats, hnext⟩ := processBatch rs h
    exact ⟨congrArg₂ Answer.batch hkept hstats, hnext⟩
  | reset => exact ⟨rfl, Rearranged.fresh h⟩

/-- **All uses.** -/
theorem answers : ∀ (uses : List Use) {p q : Pipeline}, p.Resembles q → p.answers uses = q.answers uses
  | [], _, _, _ => rfl
  | use :: uses, _, _, h => by
    obtain ⟨hsame, hnext⟩ := h.after use
    exact congrArg₂ List.cons hsame (answers uses hnext)

end Resembles

/-- A pipeline of these stages that remembers nothing. -/
def fresh (stages : List Stage) : Pipeline := (Pipeline.mk stages).reset

/-- **Rearranging the stages changes no answer.**  Two lists of stages come from each other by any number
of changes of places of a categorizing stage with a scoring or a dedup stage next to it, and of removals
of the second one of two equal stages in a row; stages that score or categorize are equal when they do so
with the same scorer or categorizer.  Then fresh pipelines of these stages answer the same
to every use, whatever uses came before. -/
theorem rearranging_changes_no_answer {a b : List Stage} (h : Relation.EqvGen Rearranged a b)
    (uses : List Use) : (fresh a).answers uses = (fresh b).answers uses := by
  induction h with
  | rel a b h => exact Resembles.answers uses h.fresh
  | refl a => rfl
  | symm a b _ ih => exact ih.symm
  | trans a b c _ _ hab hbc => exact hab.trans hbc

/-- Judges to whom a posting matters for its place only. -/
def cairoJudges : Judges where
  scorer := ⟨⟨none⟩, ⟨none⟩, ⟨none⟩, ⟨none⟩, ⟨none⟩, ⟨none⟩, ⟨none⟩, ⟨none⟩, [("cairo", 15)]⟩
  categorizer := ⟨⟨none⟩, ⟨none⟩, ⟨none⟩, ⟨none⟩, ⟨none⟩, ⟨none⟩, ⟨none⟩, ["guru"]⟩

/-- Categorizing moves from the front to the end, and one of two dedup stages goes; a link that comes a
second time is dropped by both pipelines, until they are reset. -/
theorem rearranging_changes_no_answer_cairo :
    let scoring : Stage := .scoring cairoJudges.scorer
    let categorizing : Stage := .categorizing cairoJudges.categorizer
    let before : List Stage := [categorizing, .dedup .empty, .dedup .empty, scoring]
    let behind : List Stage := [.dedup .empty, scoring, categorizing]
    let posting : Record := { title := "Artist", location := "Cairo", link := "a" }
    let uses : List Use := [.item posting, .batch [posting, { title := "Cook" }], .reset, .item posting]
    Relation.EqvGen Rearranged before behind ∧
      (fresh before).answers uses = (fresh behind).answers uses ∧
      (fresh behind).answers uses =
        let kept := cairoJudges.categorizer.categorize { posting with relevanceScore := some 15 }
        [.item (.keep kept), .batch [] { seen := 2, duplicate := 1, irrelevant := 1 }, .reset,
          .item (.keep kept)] := by
  intro scoring categorizing before behind posting uses
  have hchanges : Relation.EqvGen Rearranged before behind :=
    .trans _ [categorizing, .dedup .empty, scoring] _
      (.rel _ _ ⟨[categorizing], _, _, [scoring], .twice (.dedup .empty), rfl, rfl⟩)
      (.trans _ [.dedup .empty, categorizing, scoring] _
        (.rel _ _ ⟨[], _, _, [scoring], .dedup .empty _, rfl, rfl⟩)
        (.rel _ _ ⟨[.dedup .empty], _, _, [], .scoring _ _, rfl, rfl⟩))
  exact ⟨hchanges, rearranging_changes_no_answer hchanges uses, by decide +kernel⟩

end Pipeline

end Shortlist
