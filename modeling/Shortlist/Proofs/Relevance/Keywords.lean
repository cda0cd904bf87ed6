import Shortlist.Proofs.Pattern.Plain
import Shortlist.Proofs.Relevance.BuiltIn

/-!
# Points for keywords

Keywords and tools get points for each one that is found, up to a cap.  What is counted are not the
keywords but the words of the text that they match, so a keyword gets its points once for every
spelling of it that the text has.  With at most one spelling each, the points are bounded by the number
of keywords that are found, as they should be; a keyword with a part that may be left out can have more
and is counted more than once.

The keywords of the built-in profile are plain words, which have one spelling in nearly all texts.  Its
tools are not.
-/

namespace Shortlist.Scorer

open Pattern (CharacterData Table Valid Plain found spellings)
open Text (LowersByFolding lowersByFolding_of_ascii)

variable {p : Profile} {s : Scorer}

/-- **The points for words** are at most so many for each different word that is matched. -/
theorem points_le_distinctMatches (s : Scorer) (title description location jobType : String) :
    (s.parts title description location jobType).tools ≤
        5 * s.tools.distinctMatches (title ++ " " ++ description) ∧
      (s.parts title description location jobType).titleKeywords ≤
        8 * s.broad.distinctMatches title ∧
      (s.parts title description location jobType).descriptionKeywords ≤
        2 * s.broad.distinctMatches description := by
  have hcapped : ∀ count points cap, capped count points cap ≤ points * count :=
    fun count points cap => (Nat.min_le_left _ _).trans (Nat.mul_comm count points).le
  unfold parts
  split
  · exact ⟨Nat.zero_le _, Nat.zero_le _, Nat.zero_le _⟩
  · exact ⟨hcapped _ 5 15, hcapped _ 8 24, hcapped _ 2 10⟩

/-- **A keyword gets its points once for each of its spellings**: where every keyword of a table has at
most `n` spellings in the text, the points are at most those of `n` for each one that is found, and so
of one for each if no keyword is spelled in two ways. -/
theorem points_le_of_spellings [CharacterData] (hs : ofProfile p = .ok s) (hbroad : ∀ q ∈ p.broadKeywords, Valid q)
    (htools : ∀ q ∈ p.toolKeywords, Valid q) (title description location jobType : String) (n : Nat) :
    ((∀ q ∈ p.toolKeywords, (spellings q true (title ++ " " ++ description)).ncard ≤ n) →
      (s.parts title description location jobType).tools ≤
        5 * (n * (found p.toolKeywords true (title ++ " " ++ description)).ncard)) ∧
    ((∀ q ∈ p.broadKeywords, (spellings q true title).ncard ≤ n) →
      (s.parts title description location jobType).titleKeywords ≤
        8 * (n * (found p.broadKeywords true title).ncard)) ∧
    ((∀ q ∈ p.broadKeywords, (spellings q true description).ncard ≤ n) →
      (s.parts title description location jobType).descriptionKeywords ≤
        2 * (n * (found p.broadKeywords true description).ncard)) := by
  have hcompiles := compiles_of_ofProfile hs
  obtain ⟨hpoints, htitle, hdescription⟩ :=
    points_le_distinctMatches s title description location jobType
  refine ⟨fun hn => hpoints.trans ?_, fun hn => htitle.trans ?_, fun hn => hdescription.trans ?_⟩
  · exact Nat.mul_le_mul_left 5 (Table.distinctMatches_le htools hcompiles.tools hn)
  · exact Nat.mul_le_mul_left 8 (Table.distinctMatches_le hbroad hcompiles.broad hn)
  · exact Nat.mul_le_mul_left 2 (Table.distinctMatches_le hbroad hcompiles.broad hn)

/-- Two tools, one of them in three spellings that differ in case only. -/
theorem points_le_of_spellings_plain :
    ∃ s, ofProfile { broadKeywords := ["Artist"], toolKeywords := ["Blender", "Figma"] } = .ok s ∧
      (s.parts "Artist" "Blender, BLENDER, blender and Figma" "" "").tools ≤
        5 * (1 * (found ["Blender", "Figma"] true
          ("Artist" ++ " " ++ "Blender, BLENDER, blender and Figma")).ncard) := by
  have hroomy : Profile.Roomy
      { broadKeywords := ["Artist"], toolKeywords := ["Blender", "Figma"] } := by
    constructor <;> decide
  have hbroad : ∀ q ∈ ["Artist"], Plain q := by decide
  have htools : ∀ q ∈ ["Blender", "Figma"], Plain q := by decide
  have htext : LowersByFolding ("Artist" ++ " " ++ "Blender, BLENDER, blender and Figma") :=
    lowersByFolding_of_ascii (by decide)
  obtain ⟨s, hs⟩ := hroomy.exists_ofProfile
  exact ⟨s, hs, (points_le_of_spellings hs (fun q hq => (hbroad q hq).valid)
    (fun q hq => (htools q hq).valid) _ _ "" "" 1).1
    fun q hq => (htools q hq).ncard_spellings_le true htext⟩

/-- A blank that may be left out: one tool gets the points of two. -/
theorem one_tool_counted_twice :
    ∃ s, ofProfile { toolKeywords := [r"Cinema\s*4D"] } = .ok s ∧ Valid r"Cinema\s*4D" ∧
      ¬ (s.parts "Opening" "Cinema 4D, Cinema4D" "" "").tools ≤
        5 * (found [r"Cinema\s*4D"] true ("Opening" ++ " " ++ "Cinema 4D, Cinema4D")).ncard := by
  have htwice : (ofProfile { toolKeywords := [r"Cinema\s*4D"] }).toOption.map
      (fun s => (s.parts "Opening" "Cinema 4D, Cinema4D" "" "").tools) = some 10 := by
    decide
  have hone : (found [r"Cinema\s*4D"] true
      ("Opening" ++ " " ++ "Cinema 4D, Cinema4D")).ncard ≤ 1 := by
    have hsub : found [r"Cinema\s*4D"] true ("Opening" ++ " " ++ "Cinema 4D, Cinema4D") ⊆
        {r"Cinema\s*4D"} := fun q hq => List.mem_singleton.mp hq.1
    exact (Set.ncard_le_ncard hsub).trans (Set.ncard_singleton _).le
  cases hs : ofProfile { toolKeywords := [r"Cinema\s*4D"] } with
  | error e =>
    rw [hs] at htwice
    cases htwice
  | ok s =>
    rw [hs] at htwice
    have htools : (s.parts "Opening" "Cinema 4D, Cinema4D" "" "").tools = 10 :=
      Option.some.inj htwice
    exact ⟨s, rfl, by decide, fun hle => by omega⟩

/-- **The built-in keywords are counted once** wherever lower case is case folding: no keyword gets its
points twice, in a title or a description. -/
theorem standard_keywords_counted_once [CharacterData] (hs : ofProfile Profile.standard = .ok s)
    (title description location jobType : String) :
    (LowersByFolding title →
      (s.parts title description location jobType).titleKeywords ≤
        8 * (found Profile.standard.broadKeywords true title).ncard) ∧
    (LowersByFolding description →
      (s.parts title description location jobType).descriptionKeywords ≤
        2 * (found Profile.standard.broadKeywords true description).ncard) := by
  have hplain : ∀ q ∈ Profile.standard.broadKeywords, Plain q := by decide
  have hbroad := (compiles_of_ofProfile hs).broad
  obtain ⟨-, hpointsTitle, hpointsDescription⟩ :=
    points_le_distinctMatches s title description location jobType
  constructor
  · intro htitle
    exact hpointsTitle.trans
      (Nat.mul_le_mul_left 8 (Table.distinctMatches_le_of_plain hplain hbroad htitle))
  · intro hdescription
    exact hpointsDescription.trans
      (Nat.mul_le_mul_left 2 (Table.distinctMatches_le_of_plain hplain hbroad hdescription))

end Shortlist.Scorer
