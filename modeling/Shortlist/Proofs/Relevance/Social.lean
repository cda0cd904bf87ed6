import Shortlist.Proofs.Pattern.Words
import Shortlist.Proofs.Relevance.BuiltIn
import Shortlist.Proofs.Relevance.Deciders

/-!
# Social posts

The quick answer for social posts asks for more than the other two do, and what it lets through should
be worth something to the scorer.  That is not for free, as the answer goes by narrow keywords and the
score has no points for them: every narrow keyword must come with a broad one.

Most of the narrow keywords of the built-in profile are broad ones too, and two are longer than a broad
one and begin with it.  The one that is left, `UI/?UX`, is found where `UI/UX` is, and then so is `UI`;
but it is also found where the word `UIUX` is, which has none of the broad keywords in it.  A post with
that word can pass and still have a score of 0, and these are the only ones.
-/

namespace Shortlist.Scorer

open Pattern (CharacterData Table Valid Finds Plain Misses)

variable {p : Profile} {s : Scorer} {text : String}

/-! ## 1. Any profile -/

/-- What makes a social post relevant. -/
theorem isRelevantSocial_iff :
    s.isRelevantSocial text = true ↔ leastPostLength ≤ text.length ∧
      (s.secondary.isMatch text = true ∨ s.narrow.isMatch text = true ∨
        s.broad.isMatch text = true ∧ s.hiring.isMatch text = true) := by
  simp only [isRelevantSocial, Bool.and_eq_true, decide_eq_true_eq, Bool.or_eq_true, or_assoc]

/-- Plain words of the second language are found in a title with a blank behind it, as the score looks
for them. -/
theorem Compiles.secondary_isMatch_title [CharacterData] (hs : s.Compiles p)
    (hplain : ∀ q ∈ p.secondaryKeywords, Plain q) (h : s.secondary.isMatch text = true) :
    s.secondary.isMatch (text ++ " " ++ "") = true := by
  have hmatch := Table.isMatch_iff (fun q hq => (hplain q hq).valid) hs.secondary
  obtain ⟨q, hq, hfinds⟩ := (hmatch text).mp h
  rw [hmatch]
  exact ⟨q, hq, (hplain q hq).finds_append ((hplain q hq).finds_append hfinds " ") ""⟩

/-- **A relevant social post has a score** as a title, if every narrow keyword that is found in it comes
with a broad one. -/
theorem Compiles.score_pos_of_isRelevantSocial [CharacterData] (hs : s.Compiles p)
    (hsecondary : ∀ q ∈ p.secondaryKeywords, Plain q) (hbroad : ∀ q ∈ p.broadKeywords, Valid q)
    (hnarrow : ∀ q ∈ p.narrowKeywords, Valid q)
    (hcomes : ∀ q ∈ p.narrowKeywords, Finds q true text → ∃ b ∈ p.broadKeywords, Finds b true text)
    (hrelevant : s.isRelevantSocial text = true) (hveto : s.isVetoed text = false) :
    0 < s.score text "" "" "" := by
  have hworth : s.broad.isMatch text = true ∨ s.secondary.isMatch (text ++ " " ++ "") = true := by
    rcases (isRelevantSocial_iff.mp hrelevant).2 with hsecond | hword | ⟨hword, -⟩
    · exact Or.inr (hs.secondary_isMatch_title hsecondary hsecond)
    · obtain ⟨q, hq, hfinds⟩ := (Table.isMatch_iff hnarrow hs.narrow text).mp hword
      exact Or.inl ((Table.isMatch_iff hbroad hs.broad text).mpr (hcomes q hq hfinds))
    · exact Or.inl hword
  refine Nat.pos_of_ne_zero fun hzero => ?_
  rcases (hs.places.score_eq_zero_iff _ _ _ _).mp hzero with hvetoed | hworthless
  · exact absurd hveto (by rw [hvetoed]; decide)
  · rw [hworthless.noWordInTitle, hworthless.noSecondary] at hworth
    simp at hworth

/-! ## 2. The built-in profile -/

/-- All narrow keywords are valid; one of them is no plain word. -/
theorem standard_narrow_valid : ∀ q ∈ Profile.standard.narrowKeywords, Valid q := by
  have hplain : ∀ q ∈ Profile.standard.narrowKeywords, Plain q ∨ q = "UI/?UX" := by decide
  intro q hq
  rcases hplain q hq with hq | rfl
  · exact hq.valid
  · decide

/-- The narrow keyword with a slash that may be left out. -/
theorem finds_ui_ux_iff :
    Finds "UI/?UX" true text ↔ Finds "UIUX" true text ∨ Finds "UI/UX" true text :=
  Pattern.finds_optional_iff
    (show "UI/?UX".toList = ['U', 'I'] ++ '/' :: '?' :: ['U', 'X'] by decide) (by decide) (by decide)
    (by decide)

/-- **Every narrow keyword comes with a broad one**, but for the word `UIUX`. -/
theorem broad_of_standard_narrow (hword : ¬ Finds "UIUX" true text) :
    ∀ q ∈ Profile.standard.narrowKeywords, Finds q true text →
      ∃ b ∈ Profile.standard.broadKeywords, Finds b true text := by
  have hnarrow : ∀ q ∈ Profile.standard.narrowKeywords, q ∈ Profile.standard.broadKeywords ∨
      q = "Motion" ++ " Graphics" ∨ q = "Generative" ++ " AI" ∨ q = "UI/?UX" := by decide
  intro q hq hfinds
  rcases hnarrow q hq with hbroad | rfl | rfl | rfl
  · exact ⟨q, hbroad, hfinds⟩
  · have hfront : Finds "Motion" true text :=
      Plain.finds_front (c := 'n') (d := ' ') (by decide) (by decide) (by decide) (by decide) hfinds
    exact ⟨"Motion", by decide, hfront⟩
  · have hfront : Finds "Generative" true text :=
      Plain.finds_front (c := 'e') (d := ' ') (by decide) (by decide) (by decide) (by decide) hfinds
    exact ⟨"Generative", by decide, hfront⟩
  · have hslash : Finds ("UI" ++ "/UX") true text := (finds_ui_ux_iff.mp hfinds).resolve_left hword
    have hfront : Finds "UI" true text :=
      Plain.finds_front (c := 'I') (d := '/') (by decide) (by decide) (by decide) (by decide) hslash
    exact ⟨"UI", by decide, hfront⟩

/-- **A relevant social post has a score** as a title, unless it has the word `UIUX` in it. -/
theorem standard_social_has_score (hs : ofProfile Profile.standard = .ok s) (text : String)
    (hrelevant : s.isRelevantSocial text = true) (hveto : s.isVetoed text = false)
    (hword : ¬ Finds "UIUX" true text) : 0 < s.score text "" "" "" := by
  have hbroad : ∀ q ∈ Profile.standard.broadKeywords, Plain q := by decide
  have hsecondary : ∀ q ∈ Profile.standard.secondaryKeywords, Plain q := by decide
  exact (compiles_of_ofProfile hs).score_pos_of_isRelevantSocial hsecondary
    (fun q hq => (hbroad q hq).valid) standard_narrow_valid (broad_of_standard_narrow hword) hrelevant hveto

/-- A post with the slash. -/
theorem standard_social_has_score_slash :
    ∃ s, ofProfile Profile.standard = .ok s ∧ s.isRelevantSocial "Seeking UI/UX lead" = true ∧
      s.isVetoed "Seeking UI/UX lead" = false ∧ ¬ Finds "UIUX" true "Seeking UI/UX lead" ∧
        0 < s.score "Seeking UI/UX lead" "" "" "" := by
  obtain ⟨s, hs⟩ := Profile.standard_roomy.exists_ofProfile
  have hcompiles := compiles_of_ofProfile hs
  have hveto : s.isVetoed "Seeking UI/UX lead" = false :=
    Table.isMatch_eq_false hcompiles.negative (by decide +kernel)
  have hword : ¬ Finds "UIUX" true "Seeking UI/UX lead" := by decide +kernel
  have hnarrow : s.narrow.isMatch "Seeking UI/UX lead" = true :=
    (Table.isMatch_iff standard_narrow_valid hcompiles.narrow _).mpr
      ⟨"UI/?UX", by decide, by decide +kernel⟩
  have hrelevant : s.isRelevantSocial "Seeking UI/UX lead" = true :=
    isRelevantSocial_iff.mpr ⟨by decide, Or.inr (Or.inl hnarrow)⟩
  exact ⟨s, hs, hrelevant, hveto, hword, standard_social_has_score hs _ hrelevant hveto hword⟩

/-- The same post without the slash is relevant as well, and is worth nothing. -/
theorem social_without_slash_scores_zero :
    ∃ s, ofProfile Profile.standard = .ok s ∧ s.isRelevantSocial "Seeking UIUX lead" = true ∧
      s.isVetoed "Seeking UIUX lead" = false ∧ s.score "Seeking UIUX lead" "" "" "" = 0 := by
  obtain ⟨s, hs⟩ := Profile.standard_roomy.exists_ofProfile
  have hcompiles := compiles_of_ofProfile hs
  have hveto : s.isVetoed "Seeking UIUX lead" = false :=
    Table.isMatch_eq_false hcompiles.negative (by decide +kernel)
  have hnarrow : s.narrow.isMatch "Seeking UIUX lead" = true :=
    (Table.isMatch_iff standard_narrow_valid hcompiles.narrow _).mpr
      ⟨"UI/?UX", by decide, by decide +kernel⟩
  have hworthless : Worthless Profile.standard s "Seeking UIUX lead" "" "" "" :=
    { noTitle := Table.isMatch_eq_false hcompiles.title (by decide +kernel)
      noWordInTitle := Table.isMatch_eq_false hcompiles.broad (by decide +kernel)
      noWordInDescription := Table.isMatch_eq_false hcompiles.broad (by decide +kernel)
      noSecondary := Table.isMatch_eq_false hcompiles.secondary (by decide +kernel)
      noTool := Table.isMatch_eq_false hcompiles.tools (by decide +kernel)
      noPlace := by
        unfold NamesNoPlace
        decide +kernel }
  exact ⟨s, hs, isRelevantSocial_iff.mpr ⟨by decide, Or.inr (Or.inl hnarrow)⟩, hveto,
    (hcompiles.places.score_eq_zero_iff _ _ _ _).mpr (Or.inr hworthless)⟩

end Shortlist.Scorer
