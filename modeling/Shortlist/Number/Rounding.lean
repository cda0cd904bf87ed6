/-!
# Rounding a quotient

Quotients of natural numbers are rounded to the nearest integer.  They differ in where the middle
between two integers goes: to the even one, or to the larger one.
-/

namespace Shortlist.Number

/-- The integer nearest to `num / den`; from the middle between two the even one. -/
def nearestEven (num den : Nat) : Nat :=
  let below := num / den
  let rest := num % den
  if 2 * rest < den then below
  else if den < 2 * rest then below + 1
  else below + below % 2

/-- The integer nearest to `num / den`; from the middle between two the larger one. -/
def nearestUp (num den : Nat) : Nat := (2 * num + den) / (2 * den)

/-- Where the middle between two integers goes. -/
inductive Tie where
  | toEven
  | up
deriving Repr, DecidableEq

/-- The integer nearest to `num / den`. -/
def Tie.nearest : Tie → Nat → Nat → Nat
  | .toEven => nearestEven
  | .up => nearestUp

end Shortlist.Number
