import Mathlib.Data.List.Infix
import Shortlist.Text.Lower
import Shortlist.Text.Search

/-!
# Words in a longer text

What occurs in a text occurs in every text around it, and for a plain search that is all.  In lower case
it is not: the small form of a capital sigma depends on its neighbours, so the lower-case form of a text
need not be part of the one of a longer text.  But nothing else depends on them.  With the two small
sigmas taken for one, every character has a small form of its own (`map_oneSigma_lowerAfter`), and a
word without a sigma does not notice.
-/

namespace Shortlist.Text

/-! ## 1. Occurrence -/

/-- Some part of the text is the word. -/
def Occurs (word text : String) : Prop := ∃ front behind : String, text = front ++ word ++ behind

/-- The search finds a word where it is a block of the text. -/
theorem occursIn_iff {word : List Char} : ∀ {text : List Char}, occursIn word text = true ↔ word <:+: text
  | [] => by simp [occursIn]
  | c :: text => by
    rw [occursIn, Bool.or_eq_true, List.isPrefixOf_iff_prefix, occursIn_iff, List.infix_cons_iff]

theorem occurs_iff_isInfix {word text : String} : Occurs word text ↔ word.toList <:+: text.toList := by
  constructor
  · rintro ⟨front, behind, rfl⟩
    exact ⟨front.toList, behind.toList, by simp [String.toList_append]⟩
  · rintro ⟨front, behind, h⟩
    refine ⟨String.ofList front, String.ofList behind, String.toList_injective ?_⟩
    rw [← h]
    simp [String.toList_append]

/-- **The search finds a word exactly if it occurs.** -/
theorem contains_iff {text word : String} : contains text word = true ↔ Occurs word text :=
  occursIn_iff.trans occurs_iff_isInfix.symm

variable {word text : String}

/-- What occurs in a text occurs in every text around it. -/
theorem Occurs.embedded (h : Occurs word text) (front behind : String) :
    Occurs word (front ++ text ++ behind) := by
  obtain ⟨before, after, rfl⟩ := h
  exact ⟨front ++ before, after ++ behind, by simp only [String.append_assoc]⟩

/-! ## 2. Lower case -/

/-- Takes the two small sigmas for one. -/
def oneSigma (c : Char) : Char := if c = 'ς' then 'σ' else c

/-- The small form of a character, wherever it stands. -/
def smallForm (c : Char) : List Char := (lowerChar [] c []).map oneSigma

/-- The neighbours of a character decide only between the two small sigmas. -/
theorem map_oneSigma_lowerChar (before : List Char) (c : Char) (after : List Char) :
    (lowerChar before c after).map oneSigma = smallForm c := by
  rw [smallForm]
  by_cases hsigma : c = 'Σ'
  · subst hsigma
    simp only [lowerChar, beq_self_eq_true, if_true, List.map_cons, List.map_nil]
    split <;> rfl
  · simp only [lowerChar, beq_iff_eq, hsigma, if_false]

/-- **One small form for each character** is what remains of lower-casing when the two small sigmas are
taken for one. -/
theorem map_oneSigma_lowerAfter :
    ∀ (cs before : List Char), (lowerAfter before cs).map oneSigma = cs.flatMap smallForm
  | [], _ => rfl
  | c :: rest, before => by
    rw [lowerAfter, List.map_append, map_oneSigma_lowerChar, map_oneSigma_lowerAfter rest,
      List.flatMap_cons]

/-- Characters other than the final sigma stay as they are. -/
theorem map_oneSigma_eq {cs : List Char} (h : 'ς' ∉ cs) : cs.map oneSigma = cs := by
  have hsame : ∀ c ∈ cs, oneSigma c = id c := by
    intro c hc
    exact if_neg (ne_of_mem_of_not_mem hc h)
  rw [List.map_congr_left hsame, List.map_id]

/-- Taking the two small sigmas for one brings no word without a sigma in or out. -/
theorem infix_map_oneSigma_iff {word cs : List Char} (hfinal : 'ς' ∉ word) (hmedial : 'σ' ∉ word) :
    word <:+: cs.map oneSigma ↔ word <:+: cs := by
  constructor
  · rintro ⟨front, behind, h⟩
    obtain ⟨rest, behind, rfl, hrest, -⟩ := List.map_eq_append_iff.mp h.symm
    obtain ⟨front, block, rfl, -, rfl⟩ := List.map_eq_append_iff.mp hrest
    have hblock : 'ς' ∉ block := fun hmem => hmedial (List.mem_map.mpr ⟨'ς', hmem, rfl⟩)
    exact ⟨front, behind, by rw [map_oneSigma_eq hblock]⟩
  · intro h
    rw [← map_oneSigma_eq hfinal]
    exact h.map oneSigma

/-- **A word without a sigma that occurs in the lower-case form of a text** occurs in the lower-case form
of every text around it. -/
theorem Occurs.embedded_lower (hfinal : 'ς' ∉ word.toList) (hmedial : 'σ' ∉ word.toList)
    (h : Occurs word (lower text)) (front behind : String) :
    Occurs word (lower (front ++ text ++ behind)) := by
  have hsmall : ∀ s : String, Occurs word (lower s) ↔ word.toList <:+: s.toList.flatMap smallForm := by
    intro s
    rw [occurs_iff_isInfix, lower, String.toList_ofList, ← infix_map_oneSigma_iff hfinal hmedial,
      lowerChars, map_oneSigma_lowerAfter]
  rw [hsmall] at h ⊢
  rw [String.toList_append, String.toList_append, List.flatMap_append, List.flatMap_append]
  exact h.trans ⟨_, _, rfl⟩

end Shortlist.Text
