import Mathlib.Data.List.DropRight
import Shortlist.Record.Cleaning

/-!
# Cleaning twice

Trimming a text a second time leaves it as it is, and so does cleaning a record, as cleaning trims every
text by itself: the fixed fields, and the strings inside the extras at any depth.
-/

namespace Shortlist

/-! ## 1. Texts -/

namespace Text

/-- Characters without blanks at either end. -/
def Trimmed (cs : List Char) : Prop :=
  (∀ h : 0 < cs.length, isBlank cs[0] = false) ∧ ∀ h : cs ≠ [], isBlank (cs.getLast h) = false

theorem trimRight_eq (cs : List Char) : trimRight cs = cs.rdropWhile isBlank := rfl

/-- Nothing is trimmed from characters without blanks at either end, and from no others. -/
theorem trimChars_eq_self_iff {cs : List Char} : trimChars cs = cs ↔ Trimmed cs := by
  have hfirst : cs.dropWhile isBlank = cs ↔ ∀ h : 0 < cs.length, isBlank cs[0] = false := by
    simp [List.dropWhile_eq_self_iff]
  have hlast : trimRight cs = cs ↔ ∀ h : cs ≠ [], isBlank (cs.getLast h) = false := by
    simp [trimRight_eq, List.rdropWhile_eq_self_iff]
  rw [Trimmed, ← hfirst, ← hlast, trimChars]
  constructor
  · intro h
    -- both ends can only lose characters, so neither did
    have hfront : trimRight (cs.dropWhile isBlank) <+: cs.dropWhile isBlank := List.rdropWhile_prefix _ _
    have hsuffix : cs.dropWhile isBlank <:+ cs := List.dropWhile_suffix _
    have hle := hfront.length_le
    rw [h] at hle
    have hdrop : cs.dropWhile isBlank = cs := hsuffix.eq_of_length_le hle
    exact ⟨hdrop, by rwa [hdrop] at h⟩
  · rintro ⟨hdrop, hright⟩
    rw [hdrop, hright]

/-- **What was trimmed has no blanks at either end.** -/
theorem trimmed_trimChars (cs : List Char) : Trimmed (trimChars cs) := by
  have hfront : trimChars cs <+: cs.dropWhile isBlank := List.rdropWhile_prefix _ _
  constructor
  · intro h
    rw [hfront.getElem h]
    exact eq_false_of_ne_true
      (List.dropWhile_get_zero_not isBlank cs (Nat.lt_of_lt_of_le h hfront.length_le))
  · intro h
    exact eq_false_of_ne_true (List.rdropWhile_last_not _ _ h)

/-- **Trimming twice is trimming once.** -/
theorem trim_trim (s : String) : trim (trim s) = trim s := by
  rw [trim, trim, String.toList_ofList, trimChars_eq_self_iff.mpr (trimmed_trimChars _)]

end Text

/-! ## 2. Values -/

namespace Json.Value

variable {f : String → String}

theorem mapMemberStrings_eq_map :
    ∀ ms : List (String × Value), mapMemberStrings f ms = ms.map fun m => (m.1, mapStrings f m.2)
  | [] => rfl
  | (k, v) :: ms => by rw [mapMemberStrings, mapMemberStrings_eq_map ms, List.map_cons]

mutual

/-- Changing every string twice is changing it once if that is so for a single string. -/
theorem mapStrings_mapStrings :
    ∀ v : Value, (∀ s, f (f s) = f s) → mapStrings f (mapStrings f v) = mapStrings f v
  | .string s, hf => by rw [mapStrings, mapStrings, hf]
  | .array items, hf => by
    rw [mapStrings, mapStrings, mapItemStrings_mapItemStrings items hf]
  | .object members, hf => by
    rw [mapStrings, mapStrings, mapMemberStrings_mapMemberStrings members hf]
  | .null, _ => by simp only [mapStrings]
  | .bool _, _ => by simp only [mapStrings]
  | .number _, _ => by simp only [mapStrings]

theorem mapItemStrings_mapItemStrings :
    ∀ vs : List Value, (∀ s, f (f s) = f s) →
      mapItemStrings f (mapItemStrings f vs) = mapItemStrings f vs
  | [], _ => rfl
  | v :: vs, hf => by
    rw [mapItemStrings, mapItemStrings, mapStrings_mapStrings v hf,
      mapItemStrings_mapItemStrings vs hf]

theorem mapMemberStrings_mapMemberStrings :
    ∀ ms : List (String × Value), (∀ s, f (f s) = f s) →
      mapMemberStrings f (mapMemberStrings f ms) = mapMemberStrings f ms
  | [], _ => rfl
  | (k, v) :: ms, hf => by
    rw [mapMemberStrings, mapMemberStrings, mapStrings_mapStrings v hf,
      mapMemberStrings_mapMemberStrings ms hf]

end

end Json.Value

/-! ## 3. Records -/

namespace Record

/-- **Cleaning twice is cleaning once.** -/
theorem clean_clean (r : Record) : r.clean.clean = r.clean := by
  simp only [clean, mapTexts, Option.map_map, Function.comp_def, Text.trim_trim,
    Json.Value.mapMemberStrings_mapMemberStrings _ Text.trim_trim]

/-- A record that is clean stays so when its score is set and its category fields are filled with
texts that have no blanks at their ends. -/
theorem clean_filled {r : Record} (h : r.clean = r) (score : Option UInt8) (remote : Option Bool)
    {type typeIcon region regionIcon : String} (htype : Text.trim type = type)
    (htypeIcon : Text.trim typeIcon = typeIcon) (hregion : Text.trim region = region)
    (hregionIcon : Text.trim regionIcon = regionIcon) :
    let filled := { r with
      relevanceScore := score
      jobCategory := some type
      jobCategoryIcon := some typeIcon
      regionCategory := some region
      regionIcon := some regionIcon
      isRemote := remote }
    filled.clean = filled := by
  rw [← h]
  simp only [clean, mapTexts, Option.map_map, Option.map_some, Function.comp_def, Text.trim_trim,
    Json.Value.mapMemberStrings_mapMemberStrings _ Text.trim_trim, htype, htypeIcon, hregion, hregionIcon]

end Record

end Shortlist
