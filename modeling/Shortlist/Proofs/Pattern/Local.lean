import Shortlist.Pattern.Token
import Shortlist.Proofs.Text.Runs

/-!
# Reading in front of a bar

The patterns of a table are joined as text.  That is sound only if no token reaches over the bar
between two patterns or the parenthesis behind the last one: an escape, a bracket or a count that is
complete in a pattern by itself must be read the same with more text behind it.  A reader of which
this is true is called *local*, and every reader of a piece of a pattern is.

A reader that FAILS may well read something in front of more text: `[a` fails by itself and not in
front of `]`.  So nothing is said about failures, with one exception: `[[:x` opens an inner bracket
when no class name follows, and that must not be undone by a name that ends behind the bar.
-/

namespace Shortlist.Pattern

open Text (length_lt_of_found while_append_of_found while_append_of_stop)

/-! ## 1. Local readers -/

/-- A bar or a closing parenthesis stands in front. -/
def Stops (tail : List Char) : Prop := ∃ c rest, tail = c :: rest ∧ (c = '|' ∨ c = ')')

/-- A bar or a closing parenthesis fails a test that both fail. -/
theorem Stops.fails {test : Char → Bool} (hbar : test '|' = false) (hclose : test ')' = false)
    {tail : List Char} (h : Stops tail) : ∃ c rest, tail = c :: rest ∧ test c = false := by
  obtain ⟨c, rest, rfl, rfl | rfl⟩ := h
  · exact ⟨_, rest, rfl, hbar⟩
  · exact ⟨_, rest, rfl, hclose⟩

/-- What begins in front of a stop with another character than a stop begins before it. -/
theorem Stops.head_of_append {c : Char} {cs tail more : List Char} (h : Stops tail)
    (heq : cs ++ tail = c :: more) (hbar : c ≠ '|') (hclose : c ≠ ')') :
    ∃ rest, cs = c :: rest ∧ more = rest ++ tail := by
  cases cs with
  | nil =>
    obtain ⟨d, rest, rfl, rfl | rfl⟩ := h
    · exact absurd (List.cons.inj heq).1.symm hbar
    · exact absurd (List.cons.inj heq).1.symm hclose
  | cons d cs =>
    obtain ⟨rfl, rfl⟩ := List.cons.inj heq
    exact ⟨cs, rfl, rfl⟩

/-- What does not begin before a stop does not begin in front of it either. -/
theorem Stops.not_head_of_append {c : Char} {cs tail : List Char} (h : Stops tail) (hbar : c ≠ '|')
    (hclose : c ≠ ')') (hcs : ∀ rest, cs = c :: rest → False) (rest : List Char)
    (heq : cs ++ tail = c :: rest) : False := by
  obtain ⟨rest, hhead, -⟩ := h.head_of_append heq hbar hclose
  exact hcs rest hhead

/-- Nor does what does not begin with a character twice. -/
theorem Stops.not_twice_of_append {c : Char} {cs tail : List Char} (h : Stops tail) (hbar : c ≠ '|')
    (hclose : c ≠ ')') (hcs : ∀ rest, cs = c :: c :: rest → False) (rest : List Char)
    (heq : cs ++ tail = c :: c :: rest) : False := by
  obtain ⟨text, rfl, htext⟩ := h.head_of_append heq hbar hclose
  exact h.not_head_of_append hbar hclose (fun rest hrest => hcs rest (hrest ▸ rfl)) rest htext.symm

/-- The reader leaves no more than it was given, and what it read in a text it reads in front of a
stop too. -/
def Local {α : Type} (read : List Char → Option (α × List Char)) : Prop :=
  ∀ {cs a rest}, read cs = some (a, rest) →
    rest.length ≤ cs.length ∧ ∀ {tail}, Stops tail → read (cs ++ tail) = some (a, rest ++ tail)

/-! ## 2. Escapes -/

theorem local_hexEscape? (count : Nat) : Local (hexEscape? count) := by
  intro cs e rest h
  unfold hexEscape? at h
  split at h
  · rename_i text
    split at h
    · rename_i c behind hfound
      simp only at h
      split at h
      · cases h
      · rename_i hdigits
        obtain ⟨d, hd, heq⟩ := Option.map_eq_some_iff.mp h
        cases heq
        refine ⟨Nat.le_succ_of_le (length_lt_of_found hfound).le, fun {tail} _ => ?_⟩
        obtain ⟨htake, hdrop⟩ := while_append_of_found hfound tail
        simp only [hexEscape?, List.cons_append, hdrop, htake, hdigits, hd]
        rfl
    · cases h
  · rename_i hbrace
    split at h
    · cases h
    · rename_i hcount
      obtain ⟨d, hd, heq⟩ := Option.map_eq_some_iff.mp h
      cases heq
      refine ⟨by rw [List.length_drop]; omega, fun {tail} htail => ?_⟩
      have hle : count ≤ cs.length := by omega
      unfold hexEscape?
      split
      · rename_i text heq
        exact (htail.not_head_of_append (by decide) (by decide) hbrace text heq).elim
      · rw [if_neg (by rw [List.length_append]; omega), List.take_append_of_le_length hle, hd,
          List.drop_append_of_le_length hle]
        rfl

theorem local_boundary? : Local boundary? := by
  intro cs a rest h
  unfold boundary? at h
  split at h
  · rename_i c text
    split at h
    · rename_i hname
      cases h
      exact ⟨Nat.le_refl _, fun _ => by simp only [boundary?, List.cons_append, hname, if_true]⟩
    · rename_i hname
      split at h
      · rename_i behind hfound
        obtain ⟨a, ha, heq⟩ := Option.map_eq_some_iff.mp h
        cases heq
        refine ⟨Nat.le_succ_of_le (length_lt_of_found hfound).le, fun {tail} _ => ?_⟩
        obtain ⟨htake, hdrop⟩ := while_append_of_found hfound tail
        rw [List.cons_append] at htake hdrop
        simp only [boundary?, List.cons_append, hname, hdrop, htake, ha]
        rfl
      · cases h
  · cases h
  · rename_i hbrace hlone
    cases h
    refine ⟨Nat.le_refl _, fun htail => ?_⟩
    unfold boundary?
    split
    · rename_i c text heq
      obtain ⟨text, rfl, htext⟩ := htail.head_of_append heq (by decide) (by decide)
      cases text with
      | nil => exact (hlone rfl).elim
      | cons d text => exact (hbrace d text rfl).elim
    · rename_i heq
      obtain ⟨text, rfl, -⟩ := htail.head_of_append heq (by decide) (by decide)
      cases text with
      | nil => exact (hlone rfl).elim
      | cons d text => exact (hbrace d text rfl).elim
    · rfl

/-- **No name of a property reaches over a stop.** -/
theorem local_propertyName? : Local propertyName? := by
  intro cs name rest h
  unfold propertyName? at h
  split at h
  · cases h
  · cases h
  · rename_i text
    split at h
    · rename_i c behind hfound
      cases h
      refine ⟨Nat.le_succ_of_le (length_lt_of_found hfound).le, fun {tail} _ => ?_⟩
      obtain ⟨htake, hdrop⟩ := while_append_of_found hfound tail
      simp only [propertyName?, List.cons_append, hdrop, htake]
    · cases h
  · cases h
    refine ⟨Nat.le_succ _, fun _ => ?_⟩
    rw [List.cons_append, propertyName?]
    all_goals assumption

theorem local_property? [CharacterData] (negated : Bool) : Local (property? negated) := by
  intro cs e rest h
  unfold property? at h
  split at h
  · cases h
  · rename_i name behind hname
    obtain ⟨s, hs, heq⟩ := Option.map_eq_some_iff.mp h
    cases heq
    obtain ⟨hlength, hread⟩ := local_propertyName? hname
    refine ⟨hlength, fun htail => ?_⟩
    simp only [property?, hread htail, hs, Option.map_some]

/-- **No escape reaches over a stop.** -/
theorem local_escape? [CharacterData] : Local escape? := by
  intro cs e rest h
  unfold escape? at h
  split at h
  -- most escapes are a single character
  all_goals try (cases h; exact ⟨by simp, fun _ => rfl⟩)
  · cases h
  · obtain ⟨hlength, hread⟩ := local_property? false h
    exact ⟨Nat.le_succ_of_le hlength, fun htail => hread htail⟩
  · obtain ⟨hlength, hread⟩ := local_property? true h
    exact ⟨Nat.le_succ_of_le hlength, fun htail => hread htail⟩
  · obtain ⟨hlength, hread⟩ := local_hexEscape? 2 h
    exact ⟨Nat.le_succ_of_le hlength, fun htail => hread htail⟩
  · obtain ⟨hlength, hread⟩ := local_hexEscape? 4 h
    exact ⟨Nat.le_succ_of_le hlength, fun htail => hread htail⟩
  · obtain ⟨hlength, hread⟩ := local_hexEscape? 8 h
    exact ⟨Nat.le_succ_of_le hlength, fun htail => hread htail⟩
  · obtain ⟨⟨a, text⟩, ha, heq⟩ := Option.map_eq_some_iff.mp h
    cases heq
    obtain ⟨hlength, hread⟩ := local_boundary? ha
    refine ⟨Nat.le_succ_of_le hlength, fun htail => ?_⟩
    rw [List.cons_append, escape?, hread htail]
    rfl
  · obtain ⟨hescapable, heq⟩ := Option.ite_none_right_eq_some.mp h
    cases heq
    refine ⟨Nat.le_succ _, fun _ => ?_⟩
    rw [List.cons_append, escape?, if_pos hescapable]
    all_goals assumption

/-! ## 3. Counts -/

/-- Counts are read the same in front of a stop, also where none is found. -/
theorem count?_append {tail : List Char} (h : Stops tail) (cs : List Char) :
    count? (cs ++ tail) = (count? cs).map fun (n, rest) => (n, rest ++ tail) := by
  have hblank : ∃ c rest, tail = c :: rest ∧ Text.isBlank c = false :=
    h.fails (by decide) (by decide)
  have hdigit : ∃ c rest, tail = c :: rest ∧ Char.isDigit c = false :=
    h.fails (by decide) (by decide)
  unfold count?
  simp only [while_append_of_stop hblank, while_append_of_stop hdigit]
  split
  · rfl
  · rfl

theorem local_count? : Local count? := by
  intro cs n rest h
  refine ⟨?_, fun htail => by rw [count?_append htail, h]; rfl⟩
  unfold count? at h
  simp only at h
  split at h
  · cases h
  · cases h
    exact (List.length_dropWhile_le _ _).trans
      ((List.length_dropWhile_le _ _).trans (List.length_dropWhile_le _ _))

/-- **No bounds reach over a stop**, and the upper one is not below the lower one. -/
theorem local_counts? {cs rest : List Char} {least : Nat} {most : Option Nat}
    (h : counts? cs = some (least, most, rest)) :
    rest.length ≤ cs.length ∧ (∀ m ∈ most, least ≤ m) ∧
      ∀ {tail}, Stops tail → counts? (cs ++ tail) = some (least, most, rest ++ tail) := by
  unfold counts? at h
  split at h
  · rename_i n behind hcount
    cases h
    obtain ⟨hlength, hread⟩ := local_count? hcount
    refine ⟨Nat.le_of_succ_le hlength, ?_, fun htail => ?_⟩
    · intro m hm
      exact Nat.le_of_eq (Option.some.inj hm)
    · unfold counts?
      simp only [hread htail, List.cons_append]
  · rename_i n behind hcount
    cases h
    obtain ⟨hlength, hread⟩ := local_count? hcount
    refine ⟨Nat.le_of_succ_le (Nat.le_of_succ_le hlength), by simp, fun htail => ?_⟩
    unfold counts?
    simp only [hread htail, List.cons_append]
  · rename_i n behind hopen hcount
    split at h
    · rename_i m behind' hcount'
      obtain ⟨hle, heq⟩ := Option.ite_none_right_eq_some.mp h
      cases heq
      obtain ⟨hlength, hread⟩ := local_count? hcount
      obtain ⟨hlength', hread'⟩ := local_count? hcount'
      rw [List.length_cons] at hlength hlength'
      refine ⟨by omega, ?_, fun {tail} htail => ?_⟩
      · intro k hk
        rw [← Option.some.inj hk]
        exact hle
      · have hne : ∀ text, behind ++ tail = '}' :: text → False :=
          htail.not_head_of_append (by decide) (by decide) hopen
        unfold counts?
        simp only [hread htail, hread' htail, List.cons_append, hle, if_true]
    · cases h
  · cases h

/-- A repetition and its question mark are read the same in front of a stop. -/
theorem repetition_append {tail : List Char} (h : Stops tail) (least : Nat) (most : Option Nat)
    (cs : List Char) :
    repetition least most (cs ++ tail) =
      ((repetition least most cs).1, (repetition least most cs).2 ++ tail) := by
  cases cs with
  | nil =>
    obtain ⟨c, rest, rfl, rfl | rfl⟩ := h
    · rfl
    · rfl
  | cons c cs =>
    rw [List.cons_append]
    unfold repetition
    split
    · rename_i heq
      obtain ⟨rfl, rfl⟩ := List.cons.inj heq
      rfl
    · rename_i hmark
      split
      · rename_i heq
        obtain ⟨rfl, rfl⟩ := List.cons.inj heq
        exact (hmark _ rfl).elim
      · rfl

/-- A repetition keeps its bounds and leaves no more than there was. -/
theorem repetition_spec (least : Nat) (most : Option Nat) (cs : List Char) :
    ∃ greedy rest, repetition least most cs = (.repetition least most greedy, rest) ∧
      rest.length ≤ cs.length := by
  unfold repetition
  split
  · exact ⟨false, _, rfl, Nat.le_succ _⟩
  · exact ⟨true, _, rfl, Nat.le_refl _⟩

/-! ## 4. Brackets -/

/-- The sign of negation that a bracket or a class name may begin with. -/
def signed : List Char → Bool × List Char
  | '^' :: rest => (true, rest)
  | rest => (false, rest)

/-- A sign of negation is read the same in front of a stop. -/
theorem signed_append {tail : List Char} (h : Stops tail) (cs : List Char) :
    signed (cs ++ tail) = ((signed cs).1, (signed cs).2 ++ tail) := by
  by_cases hsign : ∃ rest, cs = '^' :: rest
  · obtain ⟨rest, rfl⟩ := hsign
    rfl
  · have hnone : ∀ rest, cs = '^' :: rest → False := fun rest heq => hsign ⟨rest, heq⟩
    rw [signed, signed]
    · exact hnone
    · exact h.not_head_of_append (by decide) (by decide) hnone

theorem length_signed (cs : List Char) : (signed cs).2.length ≤ cs.length := by
  unfold signed
  split
  · exact Nat.le_succ _
  · exact Nat.le_refl _

namespace Bracket

theorem openHyphens_append {tail : List Char} (h : Stops tail) :
    ∀ (cs : List Char) (b : Bracket),
      b.openHyphens (cs ++ tail) = ((b.openHyphens cs).1, (b.openHyphens cs).2 ++ tail)
  | [], b => by
    obtain ⟨c, rest, rfl, rfl | rfl⟩ := h
    · rfl
    · rfl
  | c :: cs, b => by
    by_cases hc : c = '-'
    · subst hc
      exact openHyphens_append h cs (b.addChar '-')
    · rw [List.cons_append]
      have hstop : ∀ text, b.openHyphens (c :: text) = (b, c :: text) := fun text => by
        unfold openHyphens
        split
        · rename_i heq
          exact absurd (List.cons.inj heq).1 hc
        · rfl
      rw [hstop, hstop]
      rfl

theorem length_openHyphens :
    ∀ (cs : List Char) (b : Bracket), (b.openHyphens cs).2.length ≤ cs.length
  | [], _ => Nat.le_refl _
  | c :: cs, b => by
    unfold openHyphens
    split
    · rename_i heq
      obtain ⟨rfl, rfl⟩ := List.cons.inj heq
      exact Nat.le_succ_of_le (length_openHyphens _ _)
    · exact Nat.le_refl _

/-- What is read behind the sign of negation. -/
def startBehind (b : Bracket) : List Char → Bracket × List Char
  | ']' :: rest => (b.addChar ']', rest)
  | rest => b.openHyphens rest

theorem startBehind_append {tail : List Char} (h : Stops tail) (b : Bracket) (cs : List Char) :
    b.startBehind (cs ++ tail) = ((b.startBehind cs).1, (b.startBehind cs).2 ++ tail) := by
  by_cases hclose : ∃ rest, cs = ']' :: rest
  · obtain ⟨rest, rfl⟩ := hclose
    rfl
  · have hnone : ∀ rest, cs = ']' :: rest → False := fun rest heq => hclose ⟨rest, heq⟩
    rw [startBehind, startBehind, openHyphens_append h]
    · exact hnone
    · exact h.not_head_of_append (by decide) (by decide) hnone

theorem length_startBehind (b : Bracket) (cs : List Char) :
    (b.startBehind cs).2.length ≤ cs.length := by
  unfold startBehind
  split
  · exact Nat.le_succ _
  · exact length_openHyphens _ _

/-- A bracket starts with its sign of negation, if it has one. -/
theorem start_eq (cs : List Char) :
    start cs = startBehind ⟨(signed cs).1, none, []⟩ (signed cs).2 :=
  rfl

/-- **The front of a bracket is read the same in front of a stop.** -/
theorem start_append {tail : List Char} (h : Stops tail) (cs : List Char) :
    start (cs ++ tail) = ((start cs).1, (start cs).2 ++ tail) := by
  rw [start_eq, signed_append h, startBehind_append h]
  rfl

theorem length_start (cs : List Char) : (start cs).2.length ≤ cs.length := by
  rw [start_eq]
  exact (length_startBehind _ _).trans (length_signed cs)

end Bracket

/-- No class name has a bar or a parenthesis in it. -/
theorem named?_eq_none {name : String} (h : '|' ∈ name.toList ∨ ')' ∈ name.toList) :
    CharSet.named? name = none := by
  unfold CharSet.named?
  split
  all_goals first | rfl | (exfalso; revert h; decide)

/-- What is read of a class name behind the sign of negation. -/
def classBehind? (negated : Bool) (cs : List Char) : Option (CharSet × List Char) :=
  match cs.dropWhile (· != ':') with
  | ':' :: ']' :: rest =>
    (CharSet.named? (String.ofList (cs.takeWhile (· != ':')))).map fun s =>
      (if negated then .outside (.spellings s) else s, rest)
  | _ => none

/-- A class name stands behind its sign of negation, if it has one. -/
theorem asciiClass?_eq (cs : List Char) : asciiClass? cs = classBehind? (signed cs).1 (signed cs).2 :=
  rfl

theorem local_classBehind? (negated : Bool) : Local (classBehind? negated) := by
  intro cs s rest h
  unfold classBehind? at h
  split at h
  · rename_i behind hfound
    obtain ⟨s, hs, heq⟩ := Option.map_eq_some_iff.mp h
    cases heq
    refine ⟨Nat.le_of_succ_le (length_lt_of_found hfound).le, fun {tail} _ => ?_⟩
    obtain ⟨htake, hdrop⟩ := while_append_of_found hfound tail
    simp only [classBehind?, List.cons_append, hdrop, htake, hs]
    rfl
  · cases h

/-- A class name that is not found is not found in front of a stop either. -/
theorem classBehind?_append_of_none {negated : Bool} {cs tail : List Char}
    (h : classBehind? negated cs = none) (htail : Stops tail) :
    classBehind? negated (cs ++ tail) = none := by
  unfold classBehind? at h ⊢
  cases hfound : cs.dropWhile (· != ':') with
  | nil =>
    -- the name would reach over the stop
    have hcs : cs.takeWhile (· != ':') = cs := by
      have hall := List.takeWhile_append_dropWhile (p := (· != ':')) (l := cs)
      rwa [hfound, List.append_nil] at hall
    obtain ⟨c, more, rfl, hc⟩ := htail
    have hpast : (fun d => d != ':') c = true := by
      rcases hc with rfl | rfl
      · decide
      · decide
    have hname : (cs ++ c :: more).takeWhile (· != ':') = cs ++ c :: more.takeWhile (· != ':') := by
      rw [List.takeWhile_append, hcs, if_pos rfl,
        List.takeWhile_cons_of_pos (p := (· != ':')) hpast]
    have hnone : CharSet.named? (String.ofList (cs ++ c :: more.takeWhile (· != ':'))) = none := by
      refine named?_eq_none ?_
      rw [String.toList_ofList]
      rcases hc with rfl | rfl
      · exact Or.inl (List.mem_append_right _ List.mem_cons_self)
      · exact Or.inr (List.mem_append_right _ List.mem_cons_self)
    rw [hname, hnone]
    split
    · rfl
    · rfl
  | cons c behind =>
    obtain ⟨htake, hdrop⟩ := while_append_of_found hfound tail
    rw [hfound] at h
    rw [hdrop, htake]
    split
    · rename_i rest heq
      obtain ⟨rfl, hbehind⟩ := List.cons.inj heq
      obtain ⟨text, rfl, -⟩ := htail.head_of_append hbehind (by decide) (by decide)
      rw [Option.map_eq_none_iff.mp h]
      rfl
    · rfl

theorem local_asciiClass? : Local asciiClass? := by
  intro cs s rest h
  rw [asciiClass?_eq] at h
  obtain ⟨hlength, hread⟩ := local_classBehind? _ h
  refine ⟨hlength.trans (length_signed cs), fun htail => ?_⟩
  rw [asciiClass?_eq, signed_append htail]
  exact hread htail

/-- A class name that is not found is not found in front of a stop either. -/
theorem asciiClass?_append_of_none {cs tail : List Char} (h : asciiClass? cs = none)
    (htail : Stops tail) : asciiClass? (cs ++ tail) = none := by
  rw [asciiClass?_eq] at h
  rw [asciiClass?_eq, signed_append htail]
  exact classBehind?_append_of_none h htail

theorem local_bracketItem? [CharacterData] : Local bracketItem? := by
  intro cs e rest h
  unfold bracketItem? at h
  split at h
  · cases h
  · rename_i text
    have hescape : escape? text = some (e, rest) ∧ ∀ a, e ≠ .assertion a := by
      split at h
      · cases h
      · rename_i hassertion
        refine ⟨h, fun a heq => hassertion a rest ?_⟩
        rw [h, heq]
    obtain ⟨hescape, hassertion⟩ := hescape
    obtain ⟨hlength, hread⟩ := local_escape? hescape
    refine ⟨Nat.le_succ_of_le hlength, fun htail => ?_⟩
    rw [List.cons_append, bracketItem?, hread htail]
    cases e with
    | assertion a => exact (hassertion a rfl).elim
    | _ => rfl
  · rename_i hslash
    cases h
    refine ⟨Nat.le_succ _, fun _ => ?_⟩
    rw [List.cons_append, bracketItem?]
    exact hslash

/-- Two characters decide whether a range goes on. -/
theorem continuesRange_cons_cons (c d : Char) (cs : List Char) :
    continuesRange (c :: d :: cs) = (c == '-' && d != ']' && d != '-') := by
  unfold continuesRange
  split
  · rename_i heq
    cases heq
    rfl
  · rename_i heq
    cases heq
    rfl
  · rename_i hclose hhyphen heq
    cases heq
    have hd : d ≠ ']' ∧ d ≠ '-' := ⟨fun h => hclose cs (h ▸ rfl), fun h => hhyphen cs (h ▸ rfl)⟩
    simp [hd]
  · rename_i hother
    have hc : c ≠ '-' := fun h => hother (d :: cs) (h ▸ rfl)
    simp [hc]

/-- A stop neither begins a range nor hinders one. -/
theorem continuesRange_append {tail : List Char} (h : Stops tail) (cs : List Char) :
    continuesRange (cs ++ tail) = continuesRange cs := by
  obtain ⟨e, rest, rfl, he⟩ := h
  match cs with
  | [] =>
    rcases he with rfl | rfl
    · rfl
    · rfl
  | [c] =>
    rw [List.singleton_append, continuesRange_cons_cons]
    by_cases hc : c = '-'
    · subst hc
      rcases he with rfl | rfl
      · rfl
      · rfl
    · unfold continuesRange
      simp [hc]
  | c :: d :: cs =>
    rw [List.cons_append, List.cons_append, continuesRange_cons_cons, continuesRange_cons_cons]

theorem local_bracketRange? [CharacterData] : Local bracketRange? := by
  intro cs s rest h
  unfold bracketRange? at h
  split at h
  · cases h
  · rename_i first behind hfirst
    obtain ⟨hlength, hread⟩ := local_bracketItem? hfirst
    split at h
    · rename_i hrange
      split at h
      · rename_i a b rest' hsecond
        obtain ⟨hle, heq⟩ := Option.ite_none_right_eq_some.mp h
        cases heq
        obtain ⟨hlength', hread'⟩ := local_bracketItem? hsecond
        refine ⟨?_, fun htail => ?_⟩
        · rw [List.length_drop] at hlength'
          omega
        · have hdrop : ∀ tail, (behind ++ tail).drop 1 = behind.drop 1 ++ tail := by
            cases behind with
            | nil => cases hrange
            | cons d behind => exact fun _ => rfl
          unfold bracketRange?
          simp only [hread htail, continuesRange_append htail, hrange, hdrop, hread' htail, hle,
            if_true]
      · cases h
    · rename_i hrange
      cases first with
      | assertion a => cases h
      | _ =>
        cases h
        refine ⟨hlength, fun htail => ?_⟩
        unfold bracketRange?
        simp only [hread htail, continuesRange_append htail, hrange]
        rfl

/-- What stands behind an inner `[` may be the name of a class. -/
def innerClass? : List Char → Option (CharSet × List Char)
  | ':' :: text => asciiClass? text
  | _ => none

theorem local_innerClass? : Local innerClass? := by
  intro cs s rest h
  unfold innerClass? at h
  split at h
  · obtain ⟨hlength, hread⟩ := local_asciiClass? h
    exact ⟨Nat.le_succ_of_le hlength, fun htail => hread htail⟩
  · cases h

theorem innerClass?_append_of_none {cs tail : List Char} (h : innerClass? cs = none) (htail : Stops tail) :
    innerClass? (cs ++ tail) = none := by
  unfold innerClass?
  split
  · rename_i heq
    obtain ⟨text, rfl, rfl⟩ := htail.head_of_append heq (by decide) (by decide)
    exact asciiClass?_append_of_none h htail
  · rfl

/-- An inner `[` begins a class with a name or another bracket. -/
theorem bracket?_open [CharacterData] (steps : Nat) (b : Bracket) (cs : List Char) :
    bracket? (steps + 1) b ('[' :: cs) =
      match innerClass? cs with
      | some (s, rest) => bracket? steps (b.add (Nested.flat s)) rest
      | none =>
        match bracket? steps (Bracket.start cs).1 (Bracket.start cs).2 with
        | some (s, rest) => bracket? steps (b.add s) rest
        | none => none := by
  rfl

/-- **No bracket reaches over a stop**, and more steps do not change what was read. -/
theorem local_bracket? [CharacterData] :
    ∀ {steps : Nat} {b : Bracket} {cs rest : List Char} {s : Nested CharSet},
      bracket? steps b cs = some (s, rest) →
      rest.length ≤ cs.length ∧ ∀ {more tail}, steps ≤ more → Stops tail →
        bracket? more b (cs ++ tail) = some (s, rest ++ tail)
  | 0, _, _, _, _, h => by cases h
  | steps + 1, b, cs, rest, s, h => by
    -- more steps are one step and more
    suffices hmore : rest.length ≤ cs.length ∧ ∀ {more tail}, steps ≤ more → Stops tail →
        bracket? (more + 1) b (cs ++ tail) = some (s, rest ++ tail) by
      refine ⟨hmore.1, fun {more tail} hle htail => ?_⟩
      obtain ⟨more, rfl⟩ := Nat.exists_eq_add_of_le' (Nat.one_le_of_lt hle)
      exact hmore.2 (Nat.le_of_succ_le_succ hle) htail
    unfold bracket? at h
    split at h
    · cases h
    · cases h
    · cases h
      exact ⟨Nat.le_succ _, fun _ _ => rfl⟩
    · rename_i heq
      cases heq
      obtain ⟨hlength, hread⟩ := local_bracket? h
      exact ⟨Nat.le_succ_of_le (Nat.le_succ_of_le hlength), fun hle htail => hread hle htail⟩
    · rename_i heq
      cases heq
      obtain ⟨hlength, hread⟩ := local_bracket? h
      exact ⟨Nat.le_succ_of_le (Nat.le_succ_of_le hlength), fun hle htail => hread hle htail⟩
    · rename_i heq
      cases heq
      obtain ⟨hlength, hread⟩ := local_bracket? h
      exact ⟨Nat.le_succ_of_le (Nat.le_succ_of_le hlength), fun hle htail => hread hle htail⟩
    · rename_i b _ _ _ steps' text heq
      cases heq
      have hopen := bracket?_open steps b text
      rw [show bracket? (steps + 1) b ('[' :: text) = some (s, rest) from h] at hopen
      simp only [List.cons_append, bracket?_open]
      cases hclass : innerClass? text with
      | some read =>
        obtain ⟨set, behind⟩ := read
        rw [hclass] at hopen
        obtain ⟨hlength, hread⟩ := local_innerClass? hclass
        obtain ⟨hlength', hread'⟩ := local_bracket? hopen.symm
        refine ⟨Nat.le_succ_of_le (hlength'.trans hlength), fun hle htail => ?_⟩
        simp only [hread htail]
        exact hread' hle htail
      | none =>
        rw [hclass] at hopen
        simp only at hopen
        split at hopen
        · rename_i inner behind hinner
          obtain ⟨hlength, hread⟩ := local_bracket? hinner
          obtain ⟨hlength', hread'⟩ := local_bracket? hopen.symm
          have hstart := Bracket.length_start text
          refine ⟨?_, fun hle htail => ?_⟩
          · rw [List.length_cons]
            omega
          · simp only [innerClass?_append_of_none hclass htail, Bracket.start_append htail,
              hread hle htail]
            exact hread' hle htail
        · cases hopen
    · rename_i b cs _ _ _ steps' heq hnil hclose hboth hminus hapart hopen
      cases heq
      split at h
      · rename_i set behind hrange
        obtain ⟨hlength, hread⟩ := local_bracketRange? hrange
        obtain ⟨hlength', hread'⟩ := local_bracket? h
        refine ⟨hlength'.trans hlength, fun {more tail} hle htail => ?_⟩
        rw [bracket?, hread htail]
        · exact hread' hle htail
        · exact fun heq => hnil (List.append_eq_nil_iff.mp heq).1
        · exact htail.not_head_of_append (by decide) (by decide) hclose
        · exact htail.not_twice_of_append (by decide) (by decide) hboth
        · exact htail.not_twice_of_append (by decide) (by decide) hminus
        · exact htail.not_twice_of_append (by decide) (by decide) hapart
        · exact htail.not_head_of_append (by decide) (by decide) hopen
      · cases h

end Shortlist.Pattern
