import Mathlib.Data.List.Basic
import Shortlist.Pipeline.Basic

/-!
# What each stage does to a record

The facts about single stages that everything about pipelines rests on: when the dedup stage lets a
record pass and what it remembers, when the scoring stage drops a record, and which fields the stages
leave alone.  Callers cite these and never unfold a stage.
-/

namespace Shortlist

/-! ## 1. Remembering links -/

namespace SeenLinks

/-- **A record passes** when its link is empty or was not seen before. -/
theorem offer_fst_eq_true_iff (s : SeenLinks) (r : Record) :
    (s.offer r).1 = true ↔ r.link = "" ∨ r.link ∉ s.links := by
  unfold offer
  by_cases hempty : r.link = ""
  · simp [hempty]
  · by_cases hseen : r.link ∈ s.links <;> simp [hempty, hseen]

/-- **What is remembered afterwards**: the link of the record, unless it is empty, and whatever was
remembered before. -/
theorem mem_links_offer (s : SeenLinks) (r : Record) (link : String) :
    link ∈ (s.offer r).2.links ↔ link ∈ s.links ∨ (link = r.link ∧ link ≠ "") := by
  unfold offer
  by_cases hempty : r.link = ""
  · simp only [hempty, beq_self_eq_true, if_true]
    exact ⟨Or.inl, fun h => h.resolve_right fun ⟨heq, hne⟩ => hne heq⟩
  · by_cases hseen : r.link ∈ s.links
    · simp only [beq_iff_eq, hempty, if_false, List.contains_iff_mem, hseen, if_true]
      refine ⟨Or.inl, ?_⟩
      rintro (h | ⟨rfl, -⟩)
      · exact h
      · exact hseen
    · simp only [beq_iff_eq, hempty, if_false, List.contains_iff_mem, hseen, List.mem_cons]
      constructor
      · rintro (rfl | h)
        · exact Or.inr ⟨rfl, hempty⟩
        · exact Or.inl h
      · rintro (h | ⟨rfl, -⟩)
        · exact Or.inr h
        · exact Or.inl rfl

end SeenLinks

/-! ## 2. Scores -/

namespace Scorer

/-- No score is above the best one. -/
theorem scoreRecord_le (s : Scorer) (r : Record) : s.scoreRecord r ≤ 100 := by
  unfold scoreRecord ScoreParts.total
  split
  · exact Nat.zero_le _
  · exact Nat.min_le_right _ _

/-- A score fits into the field that holds it. -/
theorem toNat_ofNat_scoreRecord (s : Scorer) (r : Record) :
    (UInt8.ofNat (s.scoreRecord r)).toNat = s.scoreRecord r := by
  have hle := s.scoreRecord_le r
  rw [UInt8.toNat_ofNat']
  omega

/-- **The scoring stage** by its three cases, of which the first that applies counts. -/
theorem judge_eq (s : Scorer) (r : Record) :
    s.judge r =
      if s.isVetoed r.title then .drop .vetoed
      else if s.scoreRecord r = 0 then .drop .irrelevant
      else .keep { r with relevanceScore := some (UInt8.ofNat (s.scoreRecord r)) } := by
  simp only [judge, beq_iff_eq]

end Scorer

/-! ## 3. Fields that stay -/

/-- Two records agree on every field that neither scoring nor categorizing fills. -/
def Record.SamePosting (a b : Record) : Prop :=
  a = { b with
    relevanceScore := a.relevanceScore
    jobCategory := a.jobCategory
    jobCategoryIcon := a.jobCategoryIcon
    regionCategory := a.regionCategory
    regionIcon := a.regionIcon
    isRemote := a.isRemote }

/-- A score more or less makes no other posting. -/
theorem Record.SamePosting.of_score {a b : Record} {score : Option UInt8}
    (h : a.SamePosting { b with relevanceScore := score }) : a.SamePosting b := h

/-- Categorizing fills its fields and touches no other. -/
theorem Categorizer.categorize_samePosting (c : Categorizer) (r : Record) :
    (c.categorize r).SamePosting r := rfl

/-- Categorizing leaves the score alone. -/
theorem Categorizer.relevanceScore_categorize (c : Categorizer) (r : Record) :
    (c.categorize r).relevanceScore = r.relevanceScore := rfl

end Shortlist
