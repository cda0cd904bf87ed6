import Mathlib.Data.List.Basic
import Shortlist.Text.Ascii
import Shortlist.Text.Blank
import Shortlist.Text.Lower
import Shortlist.Text.Word

/-!
# What does not see the case of ASCII letters

Two texts that differ only in the case of ASCII letters become the same text with A to Z in lower case.
So it is enough to know what does not change when a text is replaced by that one: what looks at one
character does not see the case of ASCII letters when it does not tell the capitals A to Z from their
small letters, and all the tables of characters are such.  Lower-casing a text looks around in it for
letters to tell the two small sigmas apart, and that search does not see the case either.
-/

namespace Shortlist.Text

/-! ## 1. Characters -/

/-- The capital letters A to Z. -/
def capitals : List Char := (List.range 26).map fun i => Char.ofNat (65 + i)

/-- What is said about a character does not depend on the case of ASCII letters. -/
def CaseBlind {α : Type} (f : Char → α) : Prop := ∀ c, f c.toLower = f c

/-- Upper case is the case of the letters A to Z. -/
theorem mem_capitals_of_isUpper {c : Char} (h : c.isUpper = true) : c ∈ capitals := by
  have hbounds : 65 ≤ c.toNat ∧ c.toNat ≤ 90 := of_decide_eq_true h
  refine List.mem_map.mpr ⟨c.toNat - 65, List.mem_range.mpr (by omega), ?_⟩
  rw [Nat.add_sub_cancel' hbounds.1, Char.ofNat_toNat]

/-- Every other character is in lower case already. -/
theorem toLower_eq_of_not_isUpper {c : Char} (h : ¬ c.isUpper = true) : c.toLower = c :=
  dif_neg fun hbounds => h (decide_eq_true hbounds)

/-- **Only the capitals have to be looked at.** -/
theorem caseBlind_of_capitals {α : Type} [DecidableEq α] {f : Char → α}
    (h : capitals.all (fun c => f c.toLower == f c) = true) : CaseBlind f := by
  intro c
  by_cases hc : c.isUpper = true
  · exact eq_of_beq (List.all_eq_true.mp h c (mem_capitals_of_isUpper hc))
  · rw [toLower_eq_of_not_isUpper hc]

/-- No table and no case map tells the character from its form in lower case; and if the two differ,
both have a case. -/
structure Indifferent (c : Char) : Prop where
  word : isWord c.toLower = isWord c
  digit : isDigit c.toLower = isDigit c
  blank : isBlank c.toLower = isBlank c
  ignorable : caseIgnorableTable.holds c.toLower = caseIgnorableTable.holds c
  cased : casedTable.holds c.toLower = casedTable.holds c
  folded : shifted foldSpans c.toLower.toNat = shifted foldSpans c.toNat
  lowered : shifted lowerSpans c.toLower.toNat = shifted lowerSpans c.toNat
  caseful : c.isUpper = true → isCaseless c = false ∧ isCaseless c.toLower = false

instance (c : Char) : Decidable (Indifferent c) :=
  decidable_of_iff
    (isWord c.toLower = isWord c ∧ isDigit c.toLower = isDigit c ∧ isBlank c.toLower = isBlank c ∧
      caseIgnorableTable.holds c.toLower = caseIgnorableTable.holds c ∧
      casedTable.holds c.toLower = casedTable.holds c ∧
      shifted foldSpans c.toLower.toNat = shifted foldSpans c.toNat ∧
      shifted lowerSpans c.toLower.toNat = shifted lowerSpans c.toNat ∧
      (c.isUpper = true → isCaseless c = false ∧ isCaseless c.toLower = false))
    ⟨fun ⟨h₁, h₂, h₃, h₄, h₅, h₆, h₇, h₈⟩ => ⟨h₁, h₂, h₃, h₄, h₅, h₆, h₇, h₈⟩,
      fun ⟨h₁, h₂, h₃, h₄, h₅, h₆, h₇, h₈⟩ => ⟨h₁, h₂, h₃, h₄, h₅, h₆, h₇, h₈⟩⟩

/-- **All characters are indifferent**, as the capitals are. -/
theorem indifferent (c : Char) : Indifferent c := by
  have hcapitals : capitals.all (fun c => decide (Indifferent c)) = true := by decide
  by_cases hc : c.isUpper = true
  · exact of_decide_eq_true (List.all_eq_true.mp hcapitals c (mem_capitals_of_isUpper hc))
  · have hsame := toLower_eq_of_not_isUpper hc
    constructor
    case caseful => exact fun h => absurd h hc
    all_goals rw [hsame]

theorem caseBlind_isWord : CaseBlind isWord := fun c => (indifferent c).word

theorem caseBlind_isDigit : CaseBlind isDigit := fun c => (indifferent c).digit

theorem caseBlind_isBlank : CaseBlind isBlank := fun c => (indifferent c).blank

theorem fold_toLower (c : Char) : fold c.toLower = fold c := by
  rw [fold, (indifferent c).folded, fold]

theorem orbit_toLower (c : Char) : orbit c.toLower = orbit c := by
  rw [orbit, (indifferent c).folded, orbit]

/-- **A character without case** is no ASCII letter. -/
theorem caseBlind_eq_of_isCaseless {d : Char} (h : isCaseless d = true) : CaseBlind (· == d) := by
  intro c
  by_cases hc : c.isUpper = true
  · obtain ⟨hcapital, hsmall⟩ := (indifferent c).caseful hc
    have hne : c ≠ d := fun heq => Bool.noConfusion ((heq ▸ hcapital).symm.trans h)
    have hne' : c.toLower ≠ d := fun heq => Bool.noConfusion ((heq ▸ hsmall).symm.trans h)
    exact (beq_false_of_ne hne').trans (beq_false_of_ne hne).symm
  · rw [toLower_eq_of_not_isUpper hc]

/-! ## 2. Lower case -/

/-- The search for a letter nearby does not see the case. -/
theorem meetsCased_map_toLower (cs : List Char) : meetsCased (cs.map Char.toLower) = meetsCased cs := by
  have hcomp : caseIgnorableTable.holds ∘ Char.toLower = caseIgnorableTable.holds :=
    funext fun c => (indifferent c).ignorable
  unfold meetsCased
  rw [List.dropWhile_map, hcomp]
  cases cs.dropWhile caseIgnorableTable.holds with
  | nil => rfl
  | cons c _ => exact (indifferent c).cased

/-- One character has the same lower-case form in either case, wherever it stands. -/
theorem lowerChar_toLower (before : List Char) (c : Char) (after : List Char) :
    lowerChar (before.map Char.toLower) c.toLower (after.map Char.toLower) =
      lowerChar before c after := by
  have hsigma : (c.toLower == 'Σ') = (c == 'Σ') :=
    caseBlind_of_capitals (f := (· == 'Σ')) (by decide) c
  have hdotted : (c.toLower == 'İ') = (c == 'İ') :=
    caseBlind_of_capitals (f := (· == 'İ')) (by decide) c
  unfold lowerChar endsWord
  rw [meetsCased_map_toLower, meetsCased_map_toLower, hsigma, hdotted, (indifferent c).lowered]

/-- The rest of a text has the same lower-case form in either case. -/
theorem lowerAfter_map_toLower :
    ∀ (cs before : List Char),
      lowerAfter (before.map Char.toLower) (cs.map Char.toLower) = lowerAfter before cs
  | [], _ => rfl
  | c :: rest, before => by
    rw [List.map_cons, lowerAfter, lowerAfter, lowerChar_toLower]
    exact congrArg _ (lowerAfter_map_toLower rest (c :: before))

/-- **The lower-case form of a text** does not depend on the case of ASCII letters. -/
theorem lowerChars_map_toLower (cs : List Char) : lowerChars (cs.map Char.toLower) = lowerChars cs :=
  lowerAfter_map_toLower cs []

/-! ## 3. Texts -/

section

variable {a b c d : String}

/-- Texts that differ only in the case of ASCII letters are the same in lower case. -/
theorem sameIgnoringCase_iff : sameIgnoringCase a b = true ↔ asciiLower a = asciiLower b := beq_iff_eq

/-- What does not see the case does not tell such texts apart. -/
theorem eq_of_sameIgnoringCase {α : Type} {f : List Char → α}
    (hf : ∀ cs, f (cs.map Char.toLower) = f cs) (h : sameIgnoringCase a b = true) :
    f a.toList = f b.toList := by
  rw [← hf a.toList, ← hf b.toList]
  exact congrArg f (sameIgnoringCase_iff.mp h)

theorem lower_eq_of_sameIgnoringCase (h : sameIgnoringCase a b = true) : lower a = lower b :=
  congrArg String.ofList (eq_of_sameIgnoringCase lowerChars_map_toLower h)

theorem length_eq_of_sameIgnoringCase (h : sameIgnoringCase a b = true) : a.length = b.length := by
  rw [← String.length_toList, ← String.length_toList]
  exact eq_of_sameIgnoringCase (fun _ => List.length_map Char.toLower) h

/-- Texts joined with a blank differ no more than their parts. -/
theorem sameIgnoringCase_joined (hab : sameIgnoringCase a b = true) (hcd : sameIgnoringCase c d = true) :
    sameIgnoringCase (a ++ " " ++ c) (b ++ " " ++ d) = true := by
  rw [sameIgnoringCase_iff] at *
  simp only [asciiLower, String.toList_append, List.map_append] at *
  rw [hab, hcd]

end

end Shortlist.Text
