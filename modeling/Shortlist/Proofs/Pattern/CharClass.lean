import Shortlist.Pattern.CharSet
import Shortlist.Proofs.Text.Folding
import Shortlist.Proofs.Text.Ranges

/-!
# Sets and their classes

A set says for each character whether it is in it, and its class lists the code points.  The result of
this file is that the two agree: `has_toClass` holds of every set, however it was written.  So the
expressions of a pattern, in which there are classes only, ask for the characters that the pattern asks
for.

A class may list code points that no character has; nothing is said about these.
-/

namespace Shortlist.Pattern

open Text (shifted foldSpans)

/-! ## 1. Code points of characters -/

/-- The code point of a character is no larger than the largest one. -/
theorem toNat_le_maxCodePoint (c : Char) : c.toNat ≤ Text.maxCodePoint := by
  have hvalid : c.toNat.isValidChar := c.valid
  unfold Nat.isValidChar at hvalid
  unfold Text.maxCodePoint
  omega

/-- What is folded like a character is the code point of a character, too. -/
theorem exists_char_of_shifted_eq {m : Nat} {c : Char}
    (h : shifted foldSpans m = shifted foldSpans c.toNat) : ∃ d : Char, d.toNat = m := by
  suffices hvalid : m.isValidChar from ⟨Char.ofNat m, Text.toNat_ofNat_of_isValidChar hvalid⟩
  rcases Text.shifted_eq_self_or m foldSpans with hself | ⟨s, hs, hmoves, -⟩
  · rw [← hself, h, ← Text.toNat_fold]
    exact (Text.fold c).valid
  · exact Text.isValidChar_of_moves hs hmoves

/-- The characters that are folded alike are those whose code points are. -/
theorem fold_eq_fold_iff {c d : Char} :
    Text.fold c = Text.fold d ↔ shifted foldSpans c.toNat = shifted foldSpans d.toNat := by
  rw [← Char.toNat_inj, Text.toNat_fold, Text.toNat_fold]

/-! ## 2. The class of a set -/

namespace CharSet

/-- The characters of a list, added to ranges one after another, are covered with those of the
ranges. -/
theorem covers_foldl_insert (cs : List Char) {a : Text.Ranges} (h : a.Sorted) (d : Char) :
    (cs.foldl (fun all c => all.insert c.toNat c.toNat) a).covers d.toNat = true ↔
      d ∈ cs ∨ a.covers d.toNat = true := by
  induction cs generalizing a with
  | nil => simp
  | cons c cs ih =>
    have hsingle : c.toNat ≤ d.toNat ∧ d.toNat ≤ c.toNat ↔ d = c := by
      rw [← Char.toNat_inj]
      omega
    rw [List.foldl_cons, ih (h.insert (Nat.zero_le _) (Nat.le_refl _)),
      h.covers_insert (Nat.le_refl _), hsingle, List.mem_cons]
    tauto

/-- **The class of a set** has the characters of the set. -/
theorem covers_ranges (s : CharSet) : ∀ c : Char, s.ranges.covers c.toNat = true ↔ s.has c = true := by
  induction s with
  | span first last =>
    intro c
    rw [ranges, has]
    split
    · rw [Text.Ranges.covers_cons]
      simp [Text.Ranges.covers]
    · rename_i hinverted
      simp only [Text.Ranges.covers, Bool.and_eq_true, decide_eq_true_eq, Bool.false_eq_true, false_iff]
      exact fun hbetween => hinverted (Nat.le_trans hbetween.1 hbetween.2)
  | letter d =>
    intro c
    rw [ranges, covers_foldl_insert _ .nil, Text.mem_orbit_iff, has, beq_iff_eq]
    exact or_iff_left (by simp [Text.Ranges.covers])
  | blank => exact fun c => Iff.rfl
  | digit => exact fun c => Iff.rfl
  | word => exact fun c => Iff.rfl
  | nothing => exact fun c => Iff.rfl
  | union a b iha ihb =>
    intro c
    rw [ranges, a.sorted_ranges.covers_union b.sorted_ranges, iha, ihb, has, Bool.or_eq_true]
  | inter a b iha ihb =>
    intro c
    rw [ranges, a.sorted_ranges.covers_inter b.sorted_ranges (toNat_le_maxCodePoint c), iha, ihb, has,
      Bool.and_eq_true]
  | outside a ih =>
    intro c
    rw [ranges, a.sorted_ranges.covers_outside (toNat_le_maxCodePoint c), ih, has, Bool.not_eq_true',
      Bool.not_eq_true]
  | spellings a ih =>
    intro c
    rw [ranges, a.sorted_ranges.covers_spellings, has, List.any_eq_true]
    constructor
    · rintro ⟨m, hm, hsame⟩
      obtain ⟨d, rfl⟩ := exists_char_of_shifted_eq hsame
      exact ⟨d, Text.mem_orbit (fold_eq_fold_iff.mpr hsame), (ih d).mp hm⟩
    · rintro ⟨d, hd, hin⟩
      exact ⟨d.toNat, (ih d).mpr hin, fold_eq_fold_iff.mp (Text.mem_orbit_iff.mp hd)⟩

@[simp] theorem has_toClass (s : CharSet) : s.toClass.has = s.has := by
  funext c
  exact Bool.eq_iff_iff.mpr (s.covers_ranges c)

/-- The set of one character tests for that character. -/
theorem has_single (c : Char) : (single c).has = (· == c) := by
  funext d
  rw [Bool.eq_iff_iff, beq_iff_eq, ← Char.toNat_inj]
  simp only [single, has, Bool.and_eq_true, decide_eq_true_eq]
  omega

end CharSet

/-! ## 3. Classes made of others -/

namespace CharClass

/-- The class of one character tests for that character. -/
@[simp] theorem has_single (c : Char) : (single c).has = (· == c) := by
  funext d
  rw [Bool.eq_iff_iff, beq_iff_eq, ← Char.toNat_inj, has, Text.Ranges.holds, single,
    Text.Ranges.covers_cons]
  simp only [Text.Ranges.covers, Bool.false_eq_true, or_false]
  omega

/-- A character lies in the union of two classes exactly when it lies in one of them. -/
theorem has_union (a b : CharClass) (c : Char) : (a.union b).has c = (a.has c || b.has c) := by
  rw [Bool.eq_iff_iff, Bool.or_eq_true]
  exact a.sorted.covers_union b.sorted

/-- A character lies in the class of a list of characters exactly when it is one of them. -/
theorem has_ofList (cs : List Char) (c : Char) : (ofList cs).has c = true ↔ c ∈ cs := by
  induction cs with
  | nil => simp [ofList, none, has, Text.Ranges.holds, Text.Ranges.covers]
  | cons d cs ih =>
    rw [ofList, List.foldr_cons, ← ofList, has_union, Bool.or_eq_true, ih, has_single, beq_iff_eq,
      List.mem_cons]

/-- A character lies in a union of classes exactly when it lies in one of them. -/
theorem has_unions (classes : List CharClass) (c : Char) :
    (unions classes).has c = true ↔ ∃ s ∈ classes, s.has c = true := by
  induction classes with
  | nil => simp [unions, none, has, Text.Ranges.holds, Text.Ranges.covers]
  | cons s classes ih =>
    rw [unions, List.foldr_cons, ← unions, has_union, Bool.or_eq_true, ih]
    simp

/-- **The only class with a single character** is that of the character. -/
theorem eq_single_of_char? {s : CharClass} {c : Char} (h : s.char? = some c) : s = single c := by
  obtain ⟨ranges, sorted⟩ := s
  unfold char? at h
  split at h
  · rename_i first last hranges
    obtain ⟨hone, hchar⟩ := Option.ite_none_right_eq_some.mp h
    obtain ⟨hlast, hfirst⟩ := Bool.and_eq_true_iff.mp hone
    obtain rfl : ranges = [(first, last)] := hranges
    rw [single, CharClass.mk.injEq, ← Option.some.inj hchar, eq_of_beq hfirst, eq_of_beq hlast]
  · cases h

/-- The class of one character has a single one. -/
@[simp] theorem char?_single (c : Char) : (single c).char? = some c := by
  simp [single, char?, Char.ofNat_toNat]

end CharClass

end Shortlist.Pattern
