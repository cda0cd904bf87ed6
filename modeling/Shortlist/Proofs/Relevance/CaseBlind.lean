import Shortlist.Proofs.Pattern.CaseRun
import Shortlist.Proofs.Relevance.Compiled

/-!
# ASCII case never matters

All that is asked about a posting is whether and where tables match its texts, and whether a word occurs
in a text in lower case.  No table sees the case of ASCII letters, and lower case does not either; so two
postings that differ only in the case of ASCII letters are judged alike in every way.
-/

namespace Shortlist

open Pattern (CharacterData Table)
open Text (sameIgnoringCase)

/-! ## 1. Joined texts -/

namespace Text

/-- Lower case of joined texts is the lower case of each of them. -/
theorem asciiLower_intercalate :
    ∀ texts : List String, asciiLower (" ".intercalate texts) = [' '].intercalate (texts.map asciiLower)
  | [] => rfl
  | [a] => by simp [asciiLower]
  | a :: b :: texts => by
    have ih := asciiLower_intercalate (b :: texts)
    simp only [asciiLower, String.toList_intercalate, List.map_cons, List.intercalate_cons_cons,
      List.map_append] at ih ⊢
    rw [ih]
    rfl

/-- Both texts are empty, or neither is. -/
theorem ne_empty_of_sameIgnoringCase {a b : String} (h : sameIgnoringCase a b = true) :
    (a != "") = (b != "") := by
  have hlength := length_eq_of_sameIgnoringCase h
  rw [Bool.eq_iff_iff, bne_iff_ne, bne_iff_ne, ← String.length_eq_zero_iff.ne, hlength,
    String.length_eq_zero_iff.ne]

end Text

/-- The texts that are not empty differ no more joined than by themselves. -/
theorem Categorizer.sameIgnoringCase_joinPresent {texts texts' : List String}
    (h : List.Forall₂ (fun a b => sameIgnoringCase a b = true) texts texts') :
    sameIgnoringCase (joinPresent texts) (joinPresent texts') = true := by
  have hpresent : (texts.filter (· != "")).map Text.asciiLower =
      (texts'.filter (· != "")).map Text.asciiLower := by
    induction h with
    | nil => rfl
    | @cons a b texts texts' hab _ ih =>
      simp only [List.filter_cons, Text.ne_empty_of_sameIgnoringCase hab]
      split
      · rw [List.map_cons, List.map_cons, Text.sameIgnoringCase_iff.mp hab, ih]
      · exact ih
  rw [Text.sameIgnoringCase_iff, joinPresent, joinPresent, Text.asciiLower_intercalate,
    Text.asciiLower_intercalate, hpresent]

/-! ## 2. Postings -/

/-- The texts that a posting is judged by. -/
structure Posting where
  title : String
  description : String
  location : String
  jobType : String
  source : String
  company : String
  regionHint : String

/-- The postings differ at most in the case of ASCII letters. -/
structure Posting.Alike (a b : Posting) : Prop where
  title : sameIgnoringCase a.title b.title = true
  description : sameIgnoringCase a.description b.description = true
  location : sameIgnoringCase a.location b.location = true
  jobType : sameIgnoringCase a.jobType b.jobType = true
  source : sameIgnoringCase a.source b.source = true
  company : sameIgnoringCase a.company b.company = true
  regionHint : sameIgnoringCase a.regionHint b.regionHint = true

variable {a b : Posting}

theorem Posting.Alike.text (h : a.Alike b) :
    sameIgnoringCase (a.title ++ " " ++ a.description) (b.title ++ " " ++ b.description) = true :=
  Text.sameIgnoringCase_joined h.title h.description

/-! ## 3. Scores and quick answers -/

section

variable [CharacterData] {p : Profile} {s : Scorer}

/-- Titles that are alike are ruled out together. -/
theorem Scorer.Compiles.isVetoed_eq (hs : s.Compiles p) (h : a.Alike b) :
    s.isVetoed a.title = s.isVetoed b.title :=
  Table.isMatch_eq hs.negative h.title

omit [CharacterData] in
/-- Postings that are alike name the same places. -/
theorem Scorer.locationPoints_eq (s : Scorer) (h : a.Alike b) :
    s.locationPoints a.location a.jobType = s.locationPoints b.location b.jobType := by
  have htext := Text.lower_eq_of_sameIgnoringCase (Text.sameIgnoringCase_joined h.location h.jobType)
  unfold locationPoints
  rw [htext]

/-- **The parts of the score** are the same. -/
theorem Scorer.Compiles.parts_eq (hs : s.Compiles p) (h : a.Alike b) :
    s.parts a.title a.description a.location a.jobType =
      s.parts b.title b.description b.location b.jobType := by
  unfold parts
  simp only [hs.isVetoed_eq h, s.locationPoints_eq h,
    Table.isMatch_eq hs.title h.title,
    Table.distinctMatches_eq hs.broad h.title, Table.distinctMatches_eq hs.broad h.description,
    Table.isMatch_eq hs.secondary h.text,
    Table.distinctMatches_eq hs.tools h.text]

/-- **The quick answer** is the same for any table of broad words. -/
theorem Scorer.Compiles.isRelevantBy_eq (hs : s.Compiles p) (h : a.Alike b) {words : List String}
    {broad : Table} (hbroad : Table.compile? words true = some broad) :
    s.isRelevantBy broad a.title a.description = s.isRelevantBy broad b.title b.description := by
  unfold isRelevantBy
  rw [hs.isVetoed_eq h, Table.isMatch_eq hbroad h.title, Table.isMatch_eq hbroad h.description,
    Table.isMatch_eq hs.secondary h.text]

/-- **The quick answer for a social post** is the same. -/
theorem Scorer.Compiles.isRelevantSocial_eq (hs : s.Compiles p) {text text' : String}
    (h : sameIgnoringCase text text' = true) : s.isRelevantSocial text = s.isRelevantSocial text' := by
  unfold isRelevantSocial
  rw [Text.length_eq_of_sameIgnoringCase h,
    Table.isMatch_eq hs.secondary h,
    Table.isMatch_eq hs.narrow h,
    Table.isMatch_eq hs.broad h,
    Table.isMatch_eq hs.hiring h]

end

/-! ## 4. Categories -/

section

variable [CharacterData] {t : CategoryTables} {c : Categorizer}

/-- **The kind of employment** is the same. -/
theorem Categorizer.Compiles.jobType_eq (hc : c.Compiles t) (h : a.Alike b) :
    c.jobType a.title a.location a.jobType a.source a.company =
      c.jobType b.title b.location b.jobType b.source b.company := by
  have htext := sameIgnoringCase_joinPresent
    (.cons h.title (.cons h.location (.cons h.jobType (.cons h.company .nil))))
  unfold jobType
  simp only [Text.lower_eq_of_sameIgnoringCase h.source,
    Table.isMatch_eq hc.freelance htext,
    Table.isMatch_eq hc.hybrid htext,
    Table.isMatch_eq hc.remote htext]

/-- **The region** is the same. -/
theorem Categorizer.Compiles.region_eq (hc : c.Compiles t) (h : a.Alike b) :
    c.region a.location a.regionHint = c.region b.location b.regionHint := by
  have htext := Text.sameIgnoringCase_joined h.location h.regionHint
  unfold region
  simp only [Text.lower_eq_of_sameIgnoringCase htext,
    Table.isMatch_eq hc.egypt htext,
    Table.isMatch_eq hc.uae htext,
    Table.isMatch_eq hc.europe htext]

end

/-- **ASCII case never matters.**  For any profile and category tables that compile, two postings that
differ only in the case of ASCII letters have the same score in all its parts, get the same quick
answers, and belong to the same kind of employment and the same region; two social posts get the same
quick answer. -/
theorem ascii_case_never_matters [CharacterData] {p : Profile} {s : Scorer} {t : CategoryTables} {c : Categorizer}
    (hs : Scorer.ofProfile p = .ok s) (hc : Categorizer.ofTables t = .ok c) :
    (∀ a b : Posting, a.Alike b →
      s.parts a.title a.description a.location a.jobType =
          s.parts b.title b.description b.location b.jobType ∧
        s.score a.title a.description a.location a.jobType =
          s.score b.title b.description b.location b.jobType ∧
        s.isVetoed a.title = s.isVetoed b.title ∧
        s.isRelevant a.title a.description = s.isRelevant b.title b.description ∧
        s.isRelevantFreelance a.title a.description =
          s.isRelevantFreelance b.title b.description ∧
        c.jobType a.title a.location a.jobType a.source a.company =
          c.jobType b.title b.location b.jobType b.source b.company ∧
        c.region a.location a.regionHint = c.region b.location b.regionHint) ∧
    ∀ text text', sameIgnoringCase text text' = true →
      s.isRelevantSocial text = s.isRelevantSocial text' := by
  have hs := Scorer.compiles_of_ofProfile hs
  have hc := Categorizer.compiles_of_ofTables hc
  refine ⟨fun a b h => ?_, fun text text' h => hs.isRelevantSocial_eq h⟩
  have hparts := hs.parts_eq h
  exact ⟨hparts, congrArg ScoreParts.total hparts, hs.isVetoed_eq h,
    hs.isRelevantBy_eq h hs.broad, hs.isRelevantBy_eq h hs.freelanceBroad,
    hc.jobType_eq h, hc.region_eq h⟩

/-- A profile with a title in two spellings, a word of the field and a place. -/
def harborProfile : Profile where
  titlePatterns := ["harbou?r"]
  broadKeywords := ["web"]
  locationScores := [("Cairo", 15)]

/-- Category tables with one region and one platform. -/
def harborTables : CategoryTables where
  egypt := ["cairo"]
  freelancePlatforms := ["UpWork"]

/-- A posting that is written in capitals throughout. -/
theorem ascii_case_never_matters_capitals :
    ∃ s c, Scorer.ofProfile harborProfile = .ok s ∧ Categorizer.ofTables harborTables = .ok c ∧
      s.score "Web for the harbor" "" "Cairo" "" = s.score "WEB FOR THE HARBOR" "" "CAIRO" "" ∧
      c.jobType "Web for the harbor" "Cairo" "" "upwork" "" =
        c.jobType "WEB FOR THE HARBOR" "CAIRO" "" "UPWORK" "" := by
  have halike : Posting.Alike ⟨"Web for the harbor", "", "Cairo", "", "upwork", "", ""⟩
      ⟨"WEB FOR THE HARBOR", "", "CAIRO", "", "UPWORK", "", ""⟩ := by
    constructor <;> decide
  have hprofile : (Scorer.ofProfile harborProfile).isOk = true := by decide +kernel
  have htables : (Categorizer.ofTables harborTables).isOk = true := by decide +kernel
  cases hs : Scorer.ofProfile harborProfile with
  | error e => rw [hs] at hprofile; cases hprofile
  | ok s =>
    cases hc : Categorizer.ofTables harborTables with
    | error e => rw [hc] at htables; cases htables
    | ok c =>
      obtain ⟨-, hscore, -, -, -, htype, -⟩ := (ascii_case_never_matters hs hc).1 _ _ halike
      exact ⟨s, c, rfl, rfl, hscore, htype⟩

end Shortlist
