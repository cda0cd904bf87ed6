import Mathlib.Data.List.Basic
import Mathlib.Tactic.Tauto
import Shortlist.Proofs.Text.Ranges
import Shortlist.Text.Fold

/-!
# The spellings of a character

The orbit of a character is put together from the spans of the case folding, read backwards: of every
span, the code point that it moves onto the folding of the character, if there is one.  Here it is shown
that no spelling is missed: two characters of the same folding lie in the same orbit.  So what is to
hold of all spellings of a character can be settled by looking at a few.

A span is read backwards by subtraction, and a character is made of the code point that it moves.  Both
need that no span moves a code point below 0 or onto one that is no character, which is checked once for
the ends of all spans.  Nor is anything missed when a whole class is closed under case in two passes over
all spans (`covers_spellings`): no span moves a code point that another one is moved onto, so that what
is added on the way is not followed any further.
-/

namespace Shortlist.Text

/-- A code point that a character can have is that of its character. -/
theorem toNat_ofNat_of_isValidChar {n : Nat} (h : n.isValidChar) : (Char.ofNat n).toNat = n := by
  rw [Char.ofNat, dif_pos h]
  rfl

/-- All code points that the span moves become code points of characters. -/
def Span.Lands (s : Span) : Prop :=
  0 ≤ s.first + s.shift ∧
    (s.last + s.shift < 0xD800 ∨ 0xDFFF < s.first + s.shift ∧ s.last + s.shift < 0x110000)

instance (s : Span) : Decidable s.Lands := inferInstanceAs (Decidable (_ ∧ _))

theorem foldSpans_land : ∀ s ∈ foldSpans, s.Lands := by decide +kernel

/-- The code points that a span moves lie between its ends. -/
theorem Span.bounds_of_moves {s : Span} {n : Nat} (h : s.moves n = true) :
    s.first ≤ n ∧ n ≤ s.last := by
  simp only [moves, Bool.and_eq_true, decide_eq_true_eq] at h
  exact h.1

/-- A case map leaves a code point where it is, or one of its spans moves it. -/
theorem shifted_eq_self_or (n : Nat) :
    ∀ spans : List Span, shifted spans n = n ∨
      ∃ s ∈ spans, s.moves n = true ∧ shifted spans n = (n + s.shift).toNat
  | [] => Or.inl rfl
  | s :: spans => by
    rw [shifted]
    split
    · exact Or.inl rfl
    · split
      · rename_i hmoves
        exact Or.inr ⟨s, List.mem_cons_self, hmoves, rfl⟩
      · exact (shifted_eq_self_or n spans).imp_right fun ⟨t, ht, hshifted⟩ =>
          ⟨t, List.mem_cons_of_mem s ht, hshifted⟩

/-! ## 1. Each code point is moved once -/

/-- The span has at least one code point, and only those of characters. -/
def Span.Leaves (s : Span) : Prop :=
  s.first ≤ s.last ∧ 0 < s.step ∧
    (s.last < 0xD800 ∨ 0xDFFF < s.first ∧ s.last < 0x110000)

instance (s : Span) : Decidable s.Leaves := inferInstanceAs (Decidable (_ ∧ _ ∧ _))

theorem foldSpans_leave : ∀ s ∈ foldSpans, s.Leaves := by decide +kernel

/-- Only the code points of characters are moved. -/
theorem isValidChar_of_moves {s : Span} (hs : s ∈ foldSpans) {n : Nat} (hn : s.moves n = true) :
    n.isValidChar := by
  have hbounds := Span.bounds_of_moves hn
  obtain ⟨-, -, hleaves⟩ := foldSpans_leave s hs
  unfold Nat.isValidChar
  omega

theorem foldSpans_sorted : foldSpans.Pairwise fun s t => s.last < t.first := by decide +kernel

/-- Whether a span moves none of the code points from `lo` to `hi`, or none of every second one of
them. -/
def Span.spares (lo hi : Nat) (alternating : Bool) (t : Span) : Bool :=
  hi < t.first || t.last < lo || (alternating && t.step == 2 && (lo + t.first) % 2 == 1)

theorem foldSpans_spare : ∀ s ∈ foldSpans, ∀ t ∈ foldSpans,
    t.spares (s.first + s.shift).toNat (s.last + s.shift).toNat
      (s.step == 2 || s.first == s.last) = true := by
  have hall : (foldSpans.all fun s => foldSpans.all fun t =>
      t.spares (s.first + s.shift).toNat (s.last + s.shift).toNat
        (s.step == 2 || s.first == s.last)) = true := by decide +kernel
  simpa only [List.all_eq_true] using hall

/-- **What a code point is moved onto is not moved any further.** -/
theorem not_moves_of_moves {s t : Span} {n : Nat} (hs : s ∈ foldSpans) (ht : t ∈ foldSpans)
    (hn : s.moves n = true) : t.moves (n + s.shift).toNat = false := by
  have hspares := foldSpans_spare s hs t ht
  have hlands := foldSpans_land s hs
  simp only [Span.Lands] at hlands
  simp only [Span.moves, Bool.and_eq_true, decide_eq_true_eq, beq_iff_eq] at hn
  refine Bool.eq_false_iff.mpr fun hmoves => ?_
  simp only [Span.moves, Bool.and_eq_true, decide_eq_true_eq, beq_iff_eq] at hmoves
  simp only [Span.spares, Bool.or_eq_true, Bool.and_eq_true, decide_eq_true_eq, beq_iff_eq] at hspares
  obtain ⟨⟨hfirst, hlast⟩, hstep⟩ := hn
  obtain ⟨⟨hfirst', hlast'⟩, hstep'⟩ := hmoves
  rcases hspares with (hbelow | habove) | ⟨⟨halternating, htwo⟩, hodd⟩
  · omega
  · omega
  · rw [htwo] at hstep'
    rcases halternating with htwo' | hsingle
    · rw [htwo'] at hstep
      omega
    · omega

/-- A span that moves a code point decides where it goes. -/
theorem shifted_of_moves {spans : List Span} (hsorted : spans.Pairwise fun s t => s.last < t.first)
    (hleaves : ∀ s ∈ spans, s.Leaves) {s : Span} (hs : s ∈ spans) {n : Nat} (hn : s.moves n = true) :
    shifted spans n = (n + s.shift).toNat := by
  induction spans with
  | nil => cases hs
  | cons t spans ih =>
    obtain ⟨hfront, hrest⟩ := List.pairwise_cons.mp hsorted
    obtain ⟨⟨hordered, -⟩, hleaves⟩ := List.forall_mem_cons.mp hleaves
    have hbounds := Span.bounds_of_moves hn
    rw [shifted]
    rcases List.mem_cons.mp hs with rfl | hs
    · rw [if_neg (by omega), if_pos hn]
    · have hbehind := hfront s hs
      have hpast : ¬ t.moves n = true := fun h => by
        have := Span.bounds_of_moves h
        omega
      rw [if_neg (by omega), if_neg hpast, ih hrest hleaves hs]

/-- Folding moves a code point as the span does that has it. -/
theorem shifted_foldSpans {s : Span} (hs : s ∈ foldSpans) {n : Nat} (hn : s.moves n = true) :
    shifted foldSpans n = (n + s.shift).toNat :=
  shifted_of_moves foldSpans_sorted foldSpans_leave hs hn

/-- **What is folded stays as it is.** -/
theorem shifted_shifted (n : Nat) :
    shifted foldSpans (shifted foldSpans n) = shifted foldSpans n := by
  rcases shifted_eq_self_or n foldSpans with hself | ⟨s, hs, hmoves, hshifted⟩
  · rw [hself, hself]
  · refine (shifted_eq_self_or _ foldSpans).resolve_right ?_
    rintro ⟨t, ht, hmoves', -⟩
    rw [hshifted, not_moves_of_moves hs ht hmoves] at hmoves'
    cases hmoves'

/-! ## 2. Orbits -/

/-- The folding of a character has the code point that its own one is moved to. -/
theorem toNat_fold (c : Char) : (fold c).toNat = shifted foldSpans c.toNat := by
  have hvalid : (shifted foldSpans c.toNat).isValidChar := by
    rcases shifted_eq_self_or c.toNat foldSpans with hself | ⟨s, hs, hmoves, hshifted⟩
    · rw [hself]
      exact c.valid
    · obtain ⟨hfirst, hlast⟩ := Span.bounds_of_moves hmoves
      have hlands := foldSpans_land s hs
      rw [hshifted]
      simp only [Span.Lands] at hlands
      unfold Nat.isValidChar
      omega
  exact toNat_ofNat_of_isValidChar hvalid

/-- **The orbit of a character has all of its spellings.** -/
theorem mem_orbit {c d : Char} (h : fold d = fold c) : d ∈ orbit c := by
  have hfolded : shifted foldSpans d.toNat = shifted foldSpans c.toNat := by
    rw [← toNat_fold, ← toNat_fold, h]
  rw [orbit, ← hfolded]
  rcases shifted_eq_self_or d.toNat foldSpans with hself | ⟨s, hs, hmoves, hshifted⟩
  · rw [hself, Char.ofNat_toNat]
    exact List.mem_cons_self
  · -- read backwards, the span that moves `d` leads to it again
    have hback : ((d.toNat + s.shift).toNat - s.shift).toNat = d.toNat := by
      have hlands := foldSpans_land s hs
      have hbounds := Span.bounds_of_moves hmoves
      simp only [Span.Lands] at hlands
      omega
    have hsource : s.source? (shifted foldSpans d.toNat) = some d.toNat := by
      rw [hshifted, Span.source?, hback, hmoves, beq_self_eq_true, Bool.and_self, if_pos rfl]
    refine List.mem_cons_of_mem _ (List.mem_map.mpr ⟨d.toNat, ?_, Char.ofNat_toNat d⟩)
    exact List.mem_filterMap.mpr ⟨s, hs, hsource⟩

/-- Folding a second time changes nothing. -/
theorem fold_fold (c : Char) : fold (fold c) = fold c := by
  rw [fold, toNat_fold, shifted_shifted, ← fold]

/-- **The orbit of a character** is the characters with its folding. -/
theorem mem_orbit_iff {c d : Char} : d ∈ orbit c ↔ fold d = fold c := by
  refine ⟨fun h => ?_, mem_orbit⟩
  rcases List.mem_cons.mp h with rfl | h
  · exact fold_fold c
  · obtain ⟨m, hm, rfl⟩ := List.mem_map.mp h
    obtain ⟨s, hs, hsource⟩ := List.mem_filterMap.mp hm
    obtain ⟨hfound, hback⟩ := Option.ite_none_right_eq_some.mp hsource
    rw [Option.some.inj hback] at hfound
    obtain ⟨hmoves, heq⟩ := Bool.and_eq_true_iff.mp hfound
    rw [fold, toNat_ofNat_of_isValidChar (isValidChar_of_moves hs hmoves),
      shifted_foldSpans hs hmoves, eq_of_beq heq, ← fold]

/-! ## 3. Classes -/

namespace Ranges

/-- The code points of a span that are listed are those that it moves. -/
theorem mem_sources {s : Span} (hs : s.Leaves) {n : Nat} : n ∈ s.sources ↔ s.moves n = true := by
  obtain ⟨hordered, hstep, -⟩ := hs
  simp only [Span.sources, Span.moves, List.mem_map, List.mem_range, Bool.and_eq_true,
    decide_eq_true_eq, beq_iff_eq]
  constructor
  · rintro ⟨i, hi, rfl⟩
    have hle : i * s.step ≤ s.last - s.first :=
      Nat.mul_le_of_le_div s.step i _ (Nat.lt_succ_iff.mp hi)
    refine ⟨⟨by omega, by omega⟩, ?_⟩
    rw [Nat.add_sub_cancel_left, Nat.mul_mod_left]
  · rintro ⟨⟨hfirst, hlast⟩, hmod⟩
    refine ⟨(n - s.first) / s.step, ?_, ?_⟩
    · exact Nat.lt_succ_of_le (Nat.div_le_div_right (by omega))
    · rw [Nat.div_mul_cancel (Nat.dvd_of_mod_eq_zero hmod)]
      omega

/-- The pairs of folding are the code points that some span moves. -/
theorem mem_foldPairs {p : Nat × Nat} :
    p ∈ foldPairs ↔ ∃ s ∈ foldSpans, s.moves p.1 = true ∧ p.2 = (p.1 + s.shift).toNat := by
  simp only [foldPairs, Span.pairs, List.mem_flatMap, List.mem_map]
  refine exists_congr fun s => and_congr_right fun hs => ?_
  constructor
  · rintro ⟨n, hn, rfl⟩
    exact ⟨(mem_sources (foldSpans_leave s hs)).mp hn, rfl⟩
  · rintro ⟨hmoves, hsnd⟩
    exact ⟨p.1, (mem_sources (foldSpans_leave s hs)).mpr hmoves, Prod.ext rfl hsnd.symm⟩

/-- What is moved is not what another one is moved onto. -/
theorem fst_ne_snd_of_mem_foldPairs {p q : Nat × Nat} (hp : p ∈ foldPairs) (hq : q ∈ foldPairs) :
    p.1 ≠ q.2 := by
  obtain ⟨s, hs, hmoves, -⟩ := mem_foldPairs.mp hp
  obtain ⟨t, ht, hmoves', hsnd⟩ := mem_foldPairs.mp hq
  intro heq
  rw [heq, hsnd, not_moves_of_moves ht hs hmoves'] at hmoves
  cases hmoves

/-- A code point is folded onto another one exactly if the two are a pair, or it stays. -/
theorem shifted_eq_iff {n m : Nat} :
    shifted foldSpans n = m ↔ (n, m) ∈ foldPairs ∨ (n = m ∧ ∀ p ∈ foldPairs, p.1 ≠ n) := by
  constructor
  · rintro rfl
    rcases shifted_eq_self_or n foldSpans with hself | ⟨s, hs, hmoves, hshifted⟩
    · by_cases hpair : ∃ p ∈ foldPairs, p.1 = n
      · obtain ⟨p, hp, rfl⟩ := hpair
        obtain ⟨s, hs, hmoves, hsnd⟩ := mem_foldPairs.mp hp
        exact Or.inl (by rwa [shifted_foldSpans hs hmoves, ← hsnd])
      · exact Or.inr ⟨hself.symm, fun p hp heq => hpair ⟨p, hp, heq⟩⟩
    · exact Or.inl (mem_foldPairs.mpr ⟨s, hs, hmoves, hshifted⟩)
  · rintro (hpair | ⟨rfl, hnone⟩)
    · obtain ⟨s, hs, hmoves, hsnd⟩ := mem_foldPairs.mp hpair
      exact (shifted_foldSpans hs hmoves).trans hsnd.symm
    · refine (shifted_eq_self_or n foldSpans).resolve_right ?_
      rintro ⟨s, hs, hmoves, -⟩
      exact hnone (n, (n + s.shift).toNat) (mem_foldPairs.mpr ⟨s, hs, hmoves, rfl⟩) rfl

/-- What one pair adds. -/
theorem Sorted.covers_insert_or_self {a : Ranges} (h : a.Sorted) {needed added n : Nat} :
    (if a.covers needed && !a.covers added then a.insert added added else a).covers n = true ↔
      a.covers n = true ∨ (added = n ∧ a.covers needed = true) := by
  split
  · rename_i hadds
    obtain ⟨hneeded, -⟩ := Bool.and_eq_true_iff.mp hadds
    rw [h.covers_insert (Nat.le_refl added)]
    have hsingle : (added ≤ n ∧ n ≤ added) ↔ added = n := by omega
    tauto
  · rename_i hkeeps
    refine ⟨Or.inl, ?_⟩
    rintro (hn | ⟨rfl, hneeded⟩)
    · exact hn
    · simpa [hneeded] using hkeeps

/-- A pass over pairs goes on with what the first one adds. -/
theorem addWith_cons (needed added : Nat × Nat → Nat) (p : Nat × Nat) (pairs : List (Nat × Nat))
    (a : Ranges) :
    a.addWith needed added (p :: pairs) =
      (if a.covers (needed p) && !a.covers (added p) then a.insert (added p) (added p)
        else a).addWith needed added pairs := by
  rw [Ranges.addWith]
  split
  · rfl
  · rfl

/-- **What a pass over pairs adds**, if nothing that is added is needed for something else. -/
theorem Sorted.covers_addWith {needed added : Nat × Nat → Nat} {pairs : List (Nat × Nat)}
    (hne : ∀ p ∈ pairs, ∀ q ∈ pairs, needed p ≠ added q) {a : Ranges} (h : a.Sorted) {n : Nat} :
    (a.addWith needed added pairs).covers n = true ↔
      a.covers n = true ∨ ∃ p ∈ pairs, added p = n ∧ a.covers (needed p) = true := by
  induction pairs generalizing a with
  | nil => simp [Ranges.addWith]
  | cons p pairs ih =>
    have hsorted : (if a.covers (needed p) && !a.covers (added p) then a.insert (added p) (added p)
        else a).Sorted := by
      split
      · exact h.insert (Nat.zero_le _) (Nat.le_refl _)
      · exact h
    have hothers : (∃ q ∈ pairs, added q = n ∧ (if a.covers (needed p) && !a.covers (added p) then
          a.insert (added p) (added p) else a).covers (needed q) = true) ↔
        ∃ q ∈ pairs, added q = n ∧ a.covers (needed q) = true :=
      exists_congr fun q => and_congr_right fun hq => and_congr_right fun _ => by
        have hneq := hne q (List.mem_cons_of_mem p hq) p List.mem_cons_self
        rw [h.covers_insert_or_self]
        exact or_iff_left fun hadded => hneq hadded.1.symm
    rw [addWith_cons, ih (fun q hq r hr => hne q (List.mem_cons_of_mem p hq) r
      (List.mem_cons_of_mem p hr)) hsorted, h.covers_insert_or_self, hothers]
    simp only [List.mem_cons, exists_eq_or_imp]
    tauto

/-- A class has no code point where it does not meet the bounds. -/
theorem covers_eq_false_of_meets {a : Ranges} {first last n : Nat} (h : a.meets first last = false)
    (hfirst : first ≤ n) (hlast : n ≤ last) : a.covers n = false := by
  induction a with
  | nil => rfl
  | cons r rest ih =>
    obtain ⟨lo, hi⟩ := r
    rw [meets] at h
    rw [covers]
    split at h
    · rw [if_pos (by omega)]
    · obtain ⟨hhi, hrest⟩ := Bool.or_eq_false_iff.mp h
      have hbefore := of_decide_eq_false hhi
      split
      · rfl
      · rw [ih hrest, Bool.or_false]
        exact decide_eq_false (by omega)

/-- A pass over pairs for which nothing is there adds nothing. -/
theorem addWith_eq_self {needed added : Nat × Nat → Nat} {pairs : List (Nat × Nat)} {a : Ranges}
    (h : ∀ p ∈ pairs, a.covers (needed p) = false) : a.addWith needed added pairs = a := by
  induction pairs with
  | nil => rfl
  | cons p pairs ih =>
    obtain ⟨hp, hpairs⟩ := List.forall_mem_cons.mp h
    rw [addWith_cons, hp]
    exact ih hpairs

theorem addWith_append (needed added : Nat × Nat → Nat) (pairs more : List (Nat × Nat)) (a : Ranges) :
    a.addWith needed added (pairs ++ more) =
      (a.addWith needed added pairs).addWith needed added more := by
  induction pairs generalizing a with
  | nil => rfl
  | cons p pairs ih => rw [List.cons_append, addWith_cons, addWith_cons, ih]

/-- **A pass over spans** is a pass over all of their pairs. -/
theorem addSpans_eq {needed added : Nat × Nat → Nat} {spans : List Span}
    (hbounds : ∀ s ∈ spans, ∀ p ∈ s.pairs,
      needed (s.pair s.first) ≤ needed p ∧ needed p ≤ needed (s.pair s.last)) (a : Ranges) :
    a.addSpans needed added spans = a.addWith needed added (spans.flatMap Span.pairs) := by
  induction spans generalizing a with
  | nil => rfl
  | cons s spans ih =>
    obtain ⟨hs, hspans⟩ := List.forall_mem_cons.mp hbounds
    rw [addSpans, List.flatMap_cons, addWith_append]
    split
    · exact ih hspans _
    · rename_i hmeets
      rw [addWith_eq_self fun p hp =>
        covers_eq_false_of_meets (Bool.eq_false_iff.mpr hmeets) (hs p hp).1 (hs p hp).2]
      exact ih hspans a

/-- The pairs of a span lie between its first and its last one. -/
theorem bounds_of_mem_pairs {s : Span} (hs : s ∈ foldSpans) {p : Nat × Nat} (hp : p ∈ s.pairs) :
    (s.first ≤ p.1 ∧ p.1 ≤ s.last) ∧
      ((s.pair s.first).2 ≤ p.2 ∧ p.2 ≤ (s.pair s.last).2) := by
  obtain ⟨n, hn, rfl⟩ := List.mem_map.mp hp
  have hmoves := (mem_sources (foldSpans_leave s hs)).mp hn
  simp only [Span.moves, Bool.and_eq_true, decide_eq_true_eq] at hmoves
  obtain ⟨⟨hfirst, hlast⟩, -⟩ := hmoves
  exact ⟨⟨hfirst, hlast⟩, Int.toNat_le_toNat (by omega), Int.toNat_le_toNat (by omega)⟩

/-- Closing a class under case takes two passes over the pairs of folding. -/
theorem spellings_eq (a : Ranges) : a.spellings =
    (a.addWith Prod.fst Prod.snd foldPairs).addWith Prod.snd Prod.fst foldPairs := by
  rw [Ranges.spellings, addSpans_eq fun s hs p hp => (bounds_of_mem_pairs hs hp).2,
    addSpans_eq fun s hs p hp => (bounds_of_mem_pairs hs hp).1]
  rfl

/-- **A class that is closed under case** has all code points that are folded like one of the class. -/
theorem Sorted.covers_spellings {a : Ranges} (h : a.Sorted) {n : Nat} :
    a.spellings.covers n = true ↔
      ∃ m, a.covers m = true ∧ shifted foldSpans m = shifted foldSpans n := by
  have hfolded := @Sorted.covers_addWith Prod.fst Prod.snd foldPairs
    (fun p hp q hq => fst_ne_snd_of_mem_foldPairs hp hq) a h
  have hall := @Sorted.covers_addWith Prod.snd Prod.fst foldPairs
    (fun p hp q hq => (fst_ne_snd_of_mem_foldPairs hq hp).symm) _
    (h.addWith Prod.fst Prod.snd foldPairs) n
  -- behind the first pass there are the members and their foldings
  have hmember : ∀ k, (a.addWith Prod.fst Prod.snd foldPairs).covers k = true ↔
      a.covers k = true ∨ ∃ m, a.covers m = true ∧ (m, k) ∈ foldPairs := fun k => by
    rw [hfolded]
    refine or_congr_right ⟨?_, ?_⟩
    · rintro ⟨p, hp, rfl, hcovers⟩
      exact ⟨p.1, hcovers, hp⟩
    · rintro ⟨m, hcovers, hpair⟩
      exact ⟨_, hpair, rfl, hcovers⟩
  rw [spellings_eq, hall, hmember]
  constructor
  · rintro ((hn | ⟨m, hm, hpair⟩) | ⟨p, hp, rfl, hneeded⟩)
    · exact ⟨n, hn, rfl⟩
    · have hto := shifted_eq_iff.mpr (Or.inl hpair)
      exact ⟨m, hm, by rw [← hto, shifted_shifted]⟩
    · have hto := shifted_eq_iff.mpr (Or.inl hp)
      rcases (hmember p.2).mp hneeded with hcovers | ⟨m, hm, hpair⟩
      · exact ⟨p.2, hcovers, by rw [← hto, shifted_shifted]⟩
      · exact ⟨m, hm, by rw [hto]; exact shifted_eq_iff.mpr (Or.inl hpair)⟩
  · rintro ⟨m, hm, hsame⟩
    -- the folding of both is there behind the first pass
    have hfolding : a.covers (shifted foldSpans n) = true ∨
        ∃ m, a.covers m = true ∧ (m, shifted foldSpans n) ∈ foldPairs := by
      rcases shifted_eq_iff.mp hsame with hpair | ⟨hself, -⟩
      · exact Or.inr ⟨m, hm, hpair⟩
      · exact Or.inl (hself ▸ hm)
    rcases shifted_eq_iff.mp (rfl : shifted foldSpans n = shifted foldSpans n) with hpair | ⟨hself, -⟩
    · exact Or.inr ⟨_, hpair, rfl, (hmember _).mpr hfolding⟩
    · rw [← hself] at hfolding
      exact Or.inl hfolding

end Ranges

end Shortlist.Text
