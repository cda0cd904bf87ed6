/-!
# Character classes as sorted ranges

A character class is kept as the list of its ranges of code points, in increasing order, without
overlap and with a gap between any two of them; so equal classes have equal lists.  `covers` looks a
code point up and stops at the first range that begins after it.

`Sorted` says what such a list is like, and every operation keeps it.
-/

namespace Shortlist.Text

/-- The code points of a class: closed ranges in increasing order. -/
abbrev Ranges := List (Nat × Nat)

/-- The largest code point. -/
def maxCodePoint : Nat := 0x10FFFF

namespace Ranges

/-! ## 1. Looking up -/

/-- Whether a code point lies in one of the ranges.  The ranges are sorted, so none of those
behind one that begins too late has to be looked at. -/
def covers : Ranges → Nat → Bool
  | [], _ => false
  | (lo, hi) :: rest, n => if n < lo then false else n ≤ hi || covers rest n

/-- Whether one of the ranges has a code point from `first` to `last`. -/
def meets : Ranges → (first last : Nat) → Bool
  | [], _, _ => false
  | (lo, hi) :: rest, first, last => if last < lo then false else first ≤ hi || meets rest first last

/-- Whether a character lies in the class. -/
def holds (table : Ranges) (c : Char) : Bool := table.covers c.toNat

/-! ## 2. Set operations -/

/-- Adds the code points from `lo` to `hi`.  Ranges that overlap or touch become one. -/
def insert (lo hi : Nat) : Ranges → Ranges
  | [] => [(lo, hi)]
  | (first, last) :: rest =>
    if hi + 1 < first then (lo, hi) :: (first, last) :: rest
    else if last + 1 < lo then (first, last) :: insert lo hi rest
    else insert (min lo first) (max hi last) rest

/-- The code points of either class. -/
def union (a b : Ranges) : Ranges := b.foldl (fun all r => all.insert r.1 r.2) a

/-- The code points from `start` on that are outside of the class. -/
def outsideFrom (start : Nat) : Ranges → Ranges
  | [] => if start ≤ maxCodePoint then [(start, maxCodePoint)] else []
  | (lo, hi) :: rest =>
    if start < lo then (start, lo - 1) :: outsideFrom (hi + 1) rest
    else outsideFrom (hi + 1) rest

/-- The code points outside of the class. -/
def outside (a : Ranges) : Ranges := outsideFrom 0 a

/-- The code points of both classes. -/
def inter (a b : Ranges) : Ranges := outside (union (outside a) (outside b))

/-! ## 3. Sorted ranges -/

/-- The ranges begin at `start` or behind it, they come in increasing order, and between any two of them
there is a gap. -/
inductive SortedFrom : Nat → Ranges → Prop where
  | nil {start : Nat} : SortedFrom start []
  | cons {start lo hi : Nat} {rest : Ranges} (hstart : start ≤ lo) (hle : lo ≤ hi)
    (hrest : SortedFrom (hi + 2) rest) : SortedFrom start ((lo, hi) :: rest)

/-- The ranges come in increasing order with gaps between them. -/
abbrev Sorted (a : Ranges) : Prop := SortedFrom 0 a

variable {a b rest : Ranges} {start lo hi : Nat}

theorem sortedFrom_cons_iff :
    SortedFrom start ((lo, hi) :: rest) ↔ start ≤ lo ∧ lo ≤ hi ∧ SortedFrom (hi + 2) rest :=
  ⟨fun h => by cases h; exact ⟨‹_›, ‹_›, ‹_›⟩, fun h => .cons h.1 h.2.1 h.2.2⟩

instance decidableSortedFrom : (start : Nat) → (a : Ranges) → Decidable (SortedFrom start a)
  | _, [] => isTrue .nil
  | _, (_, hi) :: rest =>
    have := decidableSortedFrom (hi + 2) rest
    decidable_of_iff' _ sortedFrom_cons_iff

theorem SortedFrom.mono {less : Nat} (h : SortedFrom start a) (hle : less ≤ start) :
    SortedFrom less a := by
  cases h with
  | nil => exact .nil
  | cons hstart hordered hrest => exact .cons (Nat.le_trans hle hstart) hordered hrest

/-- **Adding a range** keeps ranges sorted. -/
theorem SortedFrom.insert (h : SortedFrom start a) (hstart : start ≤ lo) (hle : lo ≤ hi) :
    SortedFrom start (a.insert lo hi) := by
  induction a generalizing start lo hi with
  | nil => exact .cons hstart hle .nil
  | cons r rest ih =>
    obtain ⟨first, last⟩ := r
    obtain ⟨hfirst, hlast, hrest⟩ := sortedFrom_cons_iff.mp h
    rw [Ranges.insert]
    split
    · exact .cons hstart hle (.cons (by omega) hlast hrest)
    · split
      · exact .cons hfirst hlast (ih hrest (by omega) hle)
      · exact ih (hrest.mono (by omega)) (by omega) (by omega)

/-- The union of sorted ranges is sorted. -/
theorem SortedFrom.union (hb : SortedFrom start b) (ha : a.Sorted) : (a.union b).Sorted := by
  unfold Ranges.union
  induction hb generalizing a with
  | nil => exact ha
  | cons _ hle _ ih => exact ih (ha.insert (Nat.zero_le _) hle)

/-- What lies outside of sorted ranges is sorted. -/
theorem SortedFrom.outsideFrom (h : SortedFrom start a) : SortedFrom start (a.outsideFrom start) := by
  induction a generalizing start with
  | nil =>
    rw [Ranges.outsideFrom]
    split
    · exact .cons (Nat.le_refl _) ‹_› .nil
    · exact .nil
  | cons r rest ih =>
    obtain ⟨lo, hi⟩ := r
    obtain ⟨hlo, hle, hrest⟩ := sortedFrom_cons_iff.mp h
    have hbehind := ih (hrest.mono (Nat.le_succ (hi + 1)))
    rw [Ranges.outsideFrom]
    split
    · exact .cons (Nat.le_refl _) (by omega) (hbehind.mono (by omega))
    · exact hbehind.mono (by omega)

theorem Sorted.union (ha : a.Sorted) (hb : b.Sorted) : (a.union b).Sorted := SortedFrom.union hb ha

theorem Sorted.outside (h : a.Sorted) : a.outside.Sorted := SortedFrom.outsideFrom h

theorem Sorted.inter (ha : a.Sorted) (hb : b.Sorted) : (a.inter b).Sorted :=
  (ha.outside.union hb.outside).outside

end Ranges

end Shortlist.Text
