import Mathlib.Tactic.Tauto
import Shortlist.Text.Ranges

/-!
# What ranges cover

The operations on sorted ranges are the operations on the classes that they list: adding a range adds
what lies in it, and union, complement and intersection are what their names say.  A lookup stops at the
first range that begins too late, so all of this is about sorted ranges only.
-/

namespace Shortlist.Text.Ranges

variable {a b rest : Ranges} {start lo hi n : Nat}

theorem covers_cons :
    covers ((lo, hi) :: rest) n = true ↔ lo ≤ n ∧ (n ≤ hi ∨ covers rest n = true) := by
  rw [covers]
  split
  · rename_i hlt
    simp [Nat.not_le_of_lt hlt]
  · rename_i hle
    simp [Nat.not_lt.mp hle]

/-- What sorted ranges cover lies behind their start. -/
theorem SortedFrom.le_of_covers (h : SortedFrom start a) (hn : a.covers n = true) : start ≤ n := by
  cases h with
  | nil => cases hn
  | cons hstart _ _ => exact Nat.le_trans hstart (covers_cons.mp hn).1

/-- In sorted ranges a code point lies in the first one or is covered by those behind it. -/
theorem SortedFrom.covers_cons (h : SortedFrom start ((lo, hi) :: rest)) :
    covers ((lo, hi) :: rest) n = true ↔ (lo ≤ n ∧ n ≤ hi) ∨ rest.covers n = true := by
  obtain ⟨-, hle, hrest⟩ := sortedFrom_cons_iff.mp h
  have hbehind : rest.covers n = true → lo ≤ n := fun hn => by
    have := hrest.le_of_covers hn
    omega
  rw [Ranges.covers_cons]
  tauto

/-- **Adding a range** adds what lies in it. -/
theorem SortedFrom.covers_insert (h : SortedFrom start a) (hstart : start ≤ lo) (hle : lo ≤ hi) :
    (a.insert lo hi).covers n = true ↔ (lo ≤ n ∧ n ≤ hi) ∨ a.covers n = true := by
  induction a generalizing start lo hi with
  | nil => simp [Ranges.insert, covers]
  | cons r rest ih =>
    obtain ⟨first, last⟩ := r
    have hinsert := h.insert hstart hle
    obtain ⟨hfirst, hlast, hrest⟩ := sortedFrom_cons_iff.mp h
    rw [h.covers_cons]
    rw [Ranges.insert] at hinsert ⊢
    split at hinsert
    · rw [if_pos ‹_›, hinsert.covers_cons, h.covers_cons]
    · rw [if_neg ‹_›]
      split at hinsert
      · rw [if_pos ‹_›, hinsert.covers_cons, ih hrest (by omega) hle]
        tauto
      · -- the two ranges touch or overlap, and the one that is made of both goes on
        have hbehind : SortedFrom start rest := hrest.mono (by omega)
        rw [if_neg ‹_›, ih hbehind (by omega) (by omega), ← or_assoc]
        refine or_congr_left ?_
        omega

/-- **The union** has the code points of either class. -/
theorem SortedFrom.covers_union (hb : SortedFrom start b) (ha : a.Sorted) :
    (a.union b).covers n = true ↔ a.covers n = true ∨ b.covers n = true := by
  unfold Ranges.union
  induction b generalizing a start with
  | nil => simp [covers]
  | cons r b ih =>
    obtain ⟨lo, hi⟩ := r
    obtain ⟨-, hle, hrest⟩ := sortedFrom_cons_iff.mp hb
    rw [List.foldl_cons, ih hrest (ha.insert (Nat.zero_le _) hle),
      ha.covers_insert (Nat.zero_le _) hle, hb.covers_cons]
    tauto

/-- **The complement** has all code points that the class does not have. -/
theorem SortedFrom.covers_outsideFrom (h : SortedFrom start a) (hstart : start ≤ n)
    (hn : n ≤ maxCodePoint) : (a.outsideFrom start).covers n = true ↔ ¬ a.covers n = true := by
  induction a generalizing start with
  | nil =>
    rw [Ranges.outsideFrom, if_pos (Nat.le_trans hstart hn), Ranges.covers_cons]
    simp [hstart, hn, covers]
  | cons r rest ih =>
    obtain ⟨lo, hi⟩ := r
    have houtside := h.outsideFrom
    obtain ⟨hlo, hle, hrest⟩ := sortedFrom_cons_iff.mp h
    have hbehind : SortedFrom (hi + 1) rest := hrest.mono (Nat.le_succ (hi + 1))
    rw [h.covers_cons]
    rw [Ranges.outsideFrom] at houtside ⊢
    by_cases hin : hi + 1 ≤ n
    · -- behind the first range the others decide
      have hout : ¬ (lo ≤ n ∧ n ≤ hi) := by omega
      have hfront : ¬ (start ≤ n ∧ n ≤ lo - 1) ∨ ¬ start < lo := by omega
      have hsame := ih hbehind hin
      split at houtside
      · rw [if_pos ‹_›, houtside.covers_cons]
        tauto
      · rw [if_neg ‹_›]
        tauto
    · -- up to its end the first range and the gap in front of it decide
      have hnot : ¬ (Ranges.outsideFrom (hi + 1) rest).covers n = true ∧ ¬ covers rest n = true :=
        ⟨fun hcovers => hin (hbehind.outsideFrom.le_of_covers hcovers),
          fun hcovers => hin (hbehind.le_of_covers hcovers)⟩
      split at houtside
      · rw [if_pos ‹_›, houtside.covers_cons]
        have hside : (start ≤ n ∧ n ≤ lo - 1) ↔ ¬ (lo ≤ n ∧ n ≤ hi) := by omega
        tauto
      · rw [if_neg ‹_›]
        have hin' : lo ≤ n ∧ n ≤ hi := by omega
        tauto

theorem Sorted.covers_insert (h : a.Sorted) (hle : lo ≤ hi) :
    (a.insert lo hi).covers n = true ↔ (lo ≤ n ∧ n ≤ hi) ∨ a.covers n = true :=
  SortedFrom.covers_insert h (Nat.zero_le lo) hle

theorem Sorted.covers_union (ha : a.Sorted) (hb : b.Sorted) :
    (a.union b).covers n = true ↔ a.covers n = true ∨ b.covers n = true :=
  SortedFrom.covers_union hb ha

theorem Sorted.covers_outside (h : a.Sorted) (hn : n ≤ maxCodePoint) :
    a.outside.covers n = true ↔ ¬ a.covers n = true :=
  SortedFrom.covers_outsideFrom h (Nat.zero_le n) hn

/-- **The intersection** has the code points of both classes. -/
theorem Sorted.covers_inter (ha : a.Sorted) (hb : b.Sorted) (hn : n ≤ maxCodePoint) :
    (a.inter b).covers n = true ↔ a.covers n = true ∧ b.covers n = true := by
  rw [Ranges.inter, (ha.outside.union hb.outside).covers_outside hn,
    ha.outside.covers_union hb.outside, ha.covers_outside hn, hb.covers_outside hn]
  tauto

end Shortlist.Text.Ranges
