import Mathlib.Data.Set.Card.Arithmetic
import Shortlist.Proofs.Pattern.Joined
import Shortlist.Proofs.Pattern.Occurrences

/-!
# What is counted are spellings

A table counts the different words that it matches in a text, in lower case; it knows nothing of the
pattern that a word comes from.  Each of these words is a *spelling* of one of the patterns: the
pattern matches that word somewhere in the text.  So a pattern adds at most as many as it has
spellings in the text, and one that matches nothing adds nothing.

Only this direction holds.  A search prefers some matches and passes over those that overlap with what
it found, so a spelling need not be counted; two patterns may also share one.
-/

namespace Shortlist.Pattern

/-! ## 1. What a search lists -/

namespace Program

variable {program : Program}

/-- Some of these nodes begin a run from a spot that takes a word; together with those that were taken
before, it has `length` characters. -/
def Measures (program : Program) (nodes : List Nat) (s : Spot) (taken length : Nat) : Prop :=
  ∃ i ∈ nodes, ∃ word u, length = taken + word.length ∧ s.rest = word ++ u.rest ∧
    program.Accepts i s u

/-- What is found at a spot was found before, or a run is done there without taking anything. -/
theorem measures_of_done {nodes : List Nat} {s : Spot} {taken length : Nat} {found : Option Nat}
    (h : (if (program.reach s.place nodes).done then some taken else found) = some length) :
    found = some length ∨ program.Measures nodes s taken length := by
  split at h
  · rename_i hdone
    obtain ⟨i, hi, haccepts⟩ := accepts_of_done hdone
    exact Or.inr ⟨i, hi, [], s, (Option.some.inj h).symm, rfl, haccepts⟩
  · exact Or.inl h

/-- **What is found by running side by side** was found before, or it is the length of the word that
one of the runs takes. -/
theorem measures_of_run :
    ∀ {cs : List Char} {nodes : List Nat} {before : Option Char} {taken length : Nat}
      {found : Option Nat}, program.run nodes before taken found cs = some length →
      found = some length ∨ program.Measures nodes ⟨before, cs⟩ taken length
  | [], nodes, before, taken, length, found, h => by
    rw [run] at h
    exact measures_of_done (s := ⟨before, []⟩) h
  | c :: rest, nodes, before, taken, length, found, h => by
    rw [run] at h
    split at h
    · exact measures_of_done (s := ⟨before, c :: rest⟩) h
    · -- what was found behind the character comes from there, or it was found in front of it
      rcases measures_of_run h with hfound | ⟨next, hnext, word, u, hlength, hrest, haccepts⟩
      · exact measures_of_done (s := ⟨before, c :: rest⟩) hfound
      · obtain ⟨i, hi, haccepts⟩ := accepts_of_after hnext haccepts
        have hmore : length = taken + (c :: word).length := by
          rw [hlength, List.length_cons]
          omega
        exact Or.inr ⟨i, hi, c :: word, u, hmore, congrArg (c :: ·) hrest, haccepts⟩

/-- A match at a place takes the word of its length. -/
theorem accepts_of_matchAt {before : Option Char} {cs : List Char} {length : Nat}
    (h : program.matchAt before cs = some length) :
    ∃ u, program.Accepts 0 ⟨before, cs⟩ u ∧ cs = cs.take length ++ u.rest := by
  rcases measures_of_run h with hnone | ⟨i, hi, word, u, hlength, hrest, haccepts⟩
  · cases hnone
  · obtain rfl := List.mem_singleton.mp hi
    have hcs : cs = word ++ u.rest := hrest
    have htake : cs.take length = word := by rw [hcs, hlength, Nat.zero_add, List.take_left]
    exact ⟨u, haccepts, by rwa [htake]⟩

/-- The program takes a word from some spot of a text that stands behind a character. -/
def Takes (program : Program) (before : Option Char) (cs word : List Char) : Prop :=
  ∃ s ∈ spots before cs, ∃ u, program.Accepts 0 s u ∧ s.rest = word ++ u.rest

/-- What is taken from the rest of a text is taken from the text. -/
theorem Takes.cons {c : Char} {before : Option Char} {cs word : List Char}
    (h : program.Takes (some c) cs word) : program.Takes before (c :: cs) word := by
  obtain ⟨s, hs, htakes⟩ := h
  exact ⟨s, List.mem_cons_of_mem _ hs, htakes⟩

/-- A match at the front of a text is taken from it. -/
theorem takes_of_matchAt {before : Option Char} {cs : List Char} {length : Nat}
    (h : program.matchAt before cs = some length) : program.Takes before cs (cs.take length) := by
  obtain ⟨u, haccepts, hrest⟩ := accepts_of_matchAt h
  exact ⟨_, mem_spots_self before cs, u, haccepts, hrest⟩

/-- **Every word that a search lists is taken from the text.** -/
theorem takes_of_mem_occurrencesFrom {word : List Char} :
    ∀ {cs : List Char} {before : Option Char} {skip : Nat} {adjacent : Bool},
      word ∈ program.occurrencesFrom before skip adjacent cs → program.Takes before cs word
  | [], before, skip, adjacent, h => by
    rw [occurrencesFrom] at h
    split at h
    · rename_i length hmatch
      obtain rfl : word = [] := by
        cases adjacent with
        | true => cases h
        | false => exact List.mem_singleton.mp h
      simpa using takes_of_matchAt hmatch
    · cases h
  | c :: rest, before, skip + 1, adjacent, h => by
    rw [occurrencesFrom] at h
    exact (takes_of_mem_occurrencesFrom h).cons
  | c :: rest, before, 0, adjacent, h => by
    rw [occurrencesFrom] at h
    split at h
    · rename_i length hmatch
      rcases List.mem_cons.mp h with rfl | h
      · exact takes_of_matchAt hmatch
      · exact (takes_of_mem_occurrencesFrom h).cons
    · rename_i hmatch
      split at h
      · exact (takes_of_mem_occurrencesFrom h).cons
      · rcases List.mem_cons.mp h with rfl | h
        · exact takes_of_matchAt hmatch
        · exact (takes_of_mem_occurrencesFrom h).cons
    · exact (takes_of_mem_occurrencesFrom h).cons

end Program

/-! ## 2. Spellings -/

/-- The extent covers a word somewhere in the text. -/
def Extent.Covers (e : Extent) (text : String) (word : List Char) : Prop :=
  ∃ s ∈ spots none text.toList, ∃ t, e s t ∧ s.rest = word ++ t.rest

variable [CharacterData]

/-- The pattern matches the word somewhere in the text, as a whole word if that is asked for. -/
def Spells (pattern : String) (wholeWords : Bool) (text : String) (word : List Char) : Prop :=
  ∃ n, Re.read? pattern.toList = some n ∧ (n.value.extent.wrapped wholeWords).Covers text word

/-- What the pattern matches in the text, in lower case. -/
def spellings (pattern : String) (wholeWords : Bool) (text : String) : Set (List Char) :=
  Text.lowerChars '' {word | Spells pattern wholeWords text word}

/-- The patterns that match somewhere in the text. -/
def found (patterns : List String) (wholeWords : Bool) (text : String) : Set String :=
  {p | p ∈ patterns ∧ Finds p wholeWords text}

/-- A pattern that matches a word in the text matches in the text. -/
theorem Spells.finds {pattern : String} {wholeWords : Bool} {text : String} {word : List Char}
    (h : Spells pattern wholeWords text word) : Finds pattern wholeWords text := by
  obtain ⟨n, hn, s, hs, t, hst, -⟩ := h
  exact ⟨n, hn, s, hs, t, hst⟩

omit [CharacterData] in
/-- What stands behind a spot of a text ends the text. -/
theorem rest_isSuffix {s : Spot} :
    ∀ {cs : List Char} {before : Option Char}, s ∈ spots before cs → s.rest <:+ cs
  | [], before, hs => by
    rw [List.mem_singleton.mp hs]
  | c :: rest, before, hs => by
    rcases List.mem_cons.mp hs with rfl | hs
    · exact List.suffix_rfl
    · exact (rest_isSuffix hs).trans (List.suffix_cons c rest)

/-- A spelling is a piece of the text. -/
theorem Spells.isInfix {pattern : String} {wholeWords : Bool} {text : String} {word : List Char}
    (h : Spells pattern wholeWords text word) : word <:+: text.toList := by
  obtain ⟨n, -, s, hs, t, -, hrest⟩ := h
  exact (List.IsPrefix.isInfix ⟨t.rest, hrest.symm⟩).trans (rest_isSuffix hs).isInfix

/-- A pattern has only so many spellings in a text. -/
theorem finite_spellings (pattern : String) (wholeWords : Bool) (text : String) :
    (spellings pattern wholeWords text).Finite := by
  have hpieces : {word | Spells pattern wholeWords text word} ⊆
      {word | word ∈ text.toList.sublists} := fun word h =>
    List.mem_sublists.mpr h.isInfix.sublist
  exact ((List.finite_toSet _).subset hpieces).image _

/-- Only so many patterns match. -/
theorem finite_found (patterns : List String) (wholeWords : Bool) (text : String) :
    (found patterns wholeWords text).Finite :=
  (List.finite_toSet patterns).subset fun _ h => h.1

/-! ## 3. Counting them -/

namespace Table

variable {patterns : List String} {wholeWords : Bool} {t : Table}

/-- **Every word that a table lists is a spelling of one of its patterns.** -/
theorem spells_of_mem_occurrences (hvalid : ∀ p ∈ patterns, Valid p)
    (hcompile : compile? patterns wholeWords = some t) {program : Program}
    (hprogram : t.program = some program) {text : String} {word : List Char}
    (hword : word ∈ program.occurrences text.toList) :
    ∃ p ∈ patterns, Spells p wholeWords text word := by
  by_cases hne : patterns = []
  · subst hne
    cases hcompile
    cases hprogram
  · obtain ⟨ns, r, hns, hproper, hextent, rfl⟩ := exists_program hvalid hcompile hne
    obtain rfl := Option.some.inj hprogram
    obtain ⟨s, hs, u, haccepts, hrest⟩ := Program.takes_of_mem_occurrencesFrom hword
    rw [Re.accepts_program hproper, hextent] at haccepts
    obtain ⟨e, he, hst⟩ := (Extent.wrapped_anyOf wholeWords (extents ns) s u).mp haccepts
    exact (exists_extent_iff hns fun e => (e.wrapped wholeWords).Covers text word).mp
      ⟨e, he, s, hs, u, hst, hrest⟩

/-- **No more is counted than the patterns that match have spellings**: if each pattern has at most
`n`, at most `n` for each that matches. -/
theorem distinctMatches_le (hvalid : ∀ p ∈ patterns, Valid p)
    (hcompile : compile? patterns wholeWords = some t) {text : String} {n : Nat}
    (hn : ∀ p ∈ patterns, (spellings p wholeWords text).ncard ≤ n) :
    t.distinctMatches text ≤ n * (found patterns wholeWords text).ncard := by
  have hfound := finite_found patterns wholeWords text
  unfold distinctMatches
  cases hprogram : t.program with
  | none => exact Nat.zero_le _
  | some program =>
    -- the words that are counted are spellings of patterns that match
    have hspellings : (((program.occurrences text.toList).map Text.lowerChars).toFinset : Set _) ⊆
        ⋃ p ∈ hfound.toFinset, spellings p wholeWords text := by
      intro lowered hlowered
      rw [List.coe_toFinset] at hlowered
      obtain ⟨word, hword, rfl⟩ := List.mem_map.mp hlowered
      obtain ⟨p, hp, hspells⟩ := spells_of_mem_occurrences hvalid hcompile hprogram hword
      exact Set.mem_biUnion (hfound.mem_toFinset.mpr ⟨hp, hspells.finds⟩)
        (Set.mem_image_of_mem _ hspells)
    have hfinite : (⋃ p ∈ hfound.toFinset, spellings p wholeWords text).Finite :=
      hfound.toFinset.finite_toSet.biUnion fun p _ => finite_spellings p wholeWords text
    simp only
    calc (((program.occurrences text.toList).map Text.lowerChars).eraseDups).length
        = (((program.occurrences text.toList).map Text.lowerChars).toFinset : Set _).ncard := by
          rw [length_eraseDups, Set.ncard_coe_finset]
      _ ≤ (⋃ p ∈ hfound.toFinset, spellings p wholeWords text).ncard :=
          Set.ncard_le_ncard hspellings hfinite
      _ ≤ ∑ p ∈ hfound.toFinset, (spellings p wholeWords text).ncard :=
          Finset.set_ncard_biUnion_le _ _
      _ ≤ hfound.toFinset.card • n :=
          Finset.sum_le_card_nsmul _ _ _ fun p hp => hn p (hfound.mem_toFinset.mp hp).1
      _ = n * (found patterns wholeWords text).ncard := by
          rw [smul_eq_mul, Nat.mul_comm, Set.ncard_eq_toFinset_card _ hfound]

end Table

end Shortlist.Pattern
