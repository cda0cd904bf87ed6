import Shortlist.Proofs.Pattern.Heritable

/-!
# Proper expressions

A repetition whose ceiling is below its floor would be written out wrongly as a program.  No pattern
is read as one: an expression is *proper* when every repetition in it has its ceiling above its floor,
which is a heritable rule.
-/

namespace Shortlist.Pattern

namespace Re

/-- Every repetition has its ceiling above its floor. -/
def Proper : Re → Prop
  | .group _ r => r.Proper
  | .seq a b => a.Proper ∧ b.Proper
  | .alt a b => a.Proper ∧ b.Proper
  | .repeated least most _ r => (∀ m ∈ most, least ≤ m) ∧ r.Proper
  | _ => True

/-- A set is proper. -/
theorem proper_ofSet (s : CharSet) : (ofSet s).Proper := by
  unfold ofSet ofClass
  split <;> trivial

end Re

/-- Ceilings are above floors, and nothing else is asked for. -/
def Rule.proper : Rule := ⟨fun _ => True, fun _ => True, fun least most => ∀ m ∈ most, least ≤ m⟩

theorem Rule.heritable_proper : Rule.proper.Heritable :=
  ⟨fun _ _ => trivial, fun _ => trivial, fun _ => trivial, Re.min_getD_le⟩

/-- Proper expressions are those that obey the rule. -/
theorem Re.obeys_proper_iff : ∀ {r : Re}, r.Obeys Rule.proper ↔ r.Proper
  | .empty => Iff.rfl
  | .literal _ _ => iff_of_true (fun _ _ => trivial) trivial
  | .set _ => Iff.rfl
  | .assertion _ => Iff.rfl
  | .group _ r => obeys_proper_iff (r := r)
  | .seq _ _ => and_congr obeys_proper_iff obeys_proper_iff
  | .alt _ _ => and_congr obeys_proper_iff obeys_proper_iff
  | .repeated _ _ _ _ => and_congr_right fun _ => obeys_proper_iff

/-- A token of which only proper expressions are made. -/
def Token.Proper : Token → Prop
  | .atom r => r.value.Proper
  | .repetition least most _ => ∀ m ∈ most, least ≤ m
  | _ => True

theorem Token.proper_char (c : Char) : (Token.char c).Proper := Re.proper_ofSet _

theorem Token.Proper.obeys : ∀ {t : Token}, t.Proper → t.Obeys Rule.proper
  | .opening _, h => h
  | .closing, h => h
  | .bar, h => h
  | .atom _, h => Re.obeys_proper_iff.mpr h
  | .repetition _ _ _, h => h

/-- **What is read of proper tokens is proper.** -/
theorem Re.proper_of_ofTokens? {ts : List Token} {n : Nested Re} (hts : ∀ t ∈ ts, t.Proper)
    (h : Re.ofTokens? ts = some n) : n.value.Proper :=
  Re.obeys_proper_iff.mp
    (Re.obeys_of_ofTokens? Rule.heritable_proper (fun t ht => (hts t ht).obeys) h)

end Shortlist.Pattern
