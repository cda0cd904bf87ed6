import Mathlib.Data.List.TakeWhile

/-!
# Runs of characters in front of more text

A maximal run of characters that pass a test ends at the first character that fails it.  If that
character is there, the run is the same with any text behind; if it is not, it is the same in front of a
text that begins with such a character.
-/

namespace Shortlist.Text

variable {test : Char → Bool}

/-- Less stands behind a character that is found than in the whole text. -/
theorem length_lt_of_found {cs behind : List Char} {c : Char}
    (h : cs.dropWhile test = c :: behind) : behind.length < cs.length := by
  have hle := List.length_dropWhile_le test cs
  rw [h, List.length_cons] at hle
  exact hle

/-- Taking and dropping up to a character that is found is not affected by what stands behind. -/
theorem while_append_of_found {cs behind : List Char} {c : Char}
    (h : cs.dropWhile test = c :: behind) (tail : List Char) :
    (cs ++ tail).takeWhile test = cs.takeWhile test ∧
      (cs ++ tail).dropWhile test = c :: (behind ++ tail) := by
  have hdrop : (cs ++ tail).dropWhile test = c :: (behind ++ tail) := by
    rw [List.dropWhile_append, h]
    rfl
  refine ⟨?_, hdrop⟩
  have hcs := List.takeWhile_append_dropWhile (p := test) (l := cs)
  have hall := List.takeWhile_append_dropWhile (p := test) (l := cs ++ tail)
  rw [hdrop] at hall
  rw [h] at hcs
  have heq : (cs ++ tail).takeWhile test ++ (c :: (behind ++ tail)) =
      cs.takeWhile test ++ (c :: (behind ++ tail)) := by
    rw [hall]
    conv => lhs; rw [← hcs]
    simp
  exact List.append_cancel_right heq

/-- Taking and dropping are not affected by what stands behind if something is left already. -/
theorem while_append_of_left {cs : List Char} (h : cs.dropWhile test ≠ []) (tail : List Char) :
    (cs ++ tail).takeWhile test = cs.takeWhile test ∧
      (cs ++ tail).dropWhile test = cs.dropWhile test ++ tail := by
  obtain ⟨c, behind, hfound⟩ := List.exists_cons_of_ne_nil h
  rw [hfound]
  exact while_append_of_found hfound tail

/-- Taking and dropping stop in front of a character that fails the test. -/
theorem while_append_of_stop {tail : List Char}
    (h : ∃ c rest, tail = c :: rest ∧ test c = false) (cs : List Char) :
    (cs ++ tail).takeWhile test = cs.takeWhile test ∧
      (cs ++ tail).dropWhile test = cs.dropWhile test ++ tail := by
  obtain ⟨c, rest, rfl, hc⟩ := h
  induction cs with
  | nil => simp [hc]
  | cons d cs ih =>
    cases hd : test d with
    | true => simpa [hd] using ih
    | false => simp [hd]

/-- **Where a run ends** is where the text splits into characters that pass the test and one that fails
it. -/
theorem dropWhile_eq_cons_iff {cs rest : List Char} {c : Char} :
    cs.dropWhile test = c :: rest ↔
      test c = false ∧ ∃ run, (∀ d ∈ run, test d = true) ∧ cs = run ++ c :: rest := by
  constructor
  · intro h
    refine ⟨?_, cs.takeWhile test, fun d hd => List.mem_takeWhile_imp hd, ?_⟩
    · have hhead := List.head?_dropWhile_not test cs
      rw [h] at hhead
      simpa using hhead
    · rw [← h, List.takeWhile_append_dropWhile]
  · rintro ⟨hc, run, hrun, rfl⟩
    rw [List.dropWhile_append_of_pos hrun, List.dropWhile_cons_of_neg (by simp [hc])]

/-- The characters in front of the first one that fails the test. -/
theorem takeWhile_append_cons {run : List Char} (hrun : ∀ d ∈ run, test d = true) {c : Char}
    (hc : test c = false) (rest : List Char) : (run ++ c :: rest).takeWhile test = run := by
  rw [List.takeWhile_append_of_pos hrun, List.takeWhile_cons_of_neg (by simp [hc]), List.append_nil]

/-- A text splits in one way only into a run and what begins with the first character behind it. -/
theorem append_cons_inj {run run' rest rest' : List Char} {c : Char} (hc : test c = false)
    (hrun : ∀ d ∈ run, test d = true) (hrun' : ∀ d ∈ run', test d = true)
    (h : run ++ c :: rest = run' ++ c :: rest') : run = run' ∧ rest = rest' := by
  have hsame : run = run' := by
    rw [← takeWhile_append_cons hrun hc rest, h, takeWhile_append_cons hrun' hc]
  subst hsame
  exact ⟨rfl, (List.cons.inj (List.append_cancel_left h)).2⟩

end Shortlist.Text
