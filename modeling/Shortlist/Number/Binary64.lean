import Shortlist.Number.Power
import Shortlist.Number.Rounding

/-!
# Double precision numbers

A finite double precision number is a whole multiple of the smallest positive one, which is
`2 ^ -1074`.  It is kept as that multiple, its number of *units*, together with its sign, so that
comparing two numbers compares natural numbers, and every operation computes its exact result as a
quotient of natural numbers before it rounds once.

Representable multiples have at most 53 significant bits: near `q` units they are `grid q` units
apart.  `ofQuotient` is the rounding of a quotient of units to the nearest of them, ties to the even
one, with everything beyond the largest finite number going to infinity.
-/

namespace Shortlist.Number

/-- A double precision number. -/
inductive Binary64 where
  /-- Not a number. -/
  | nan
  /-- One of the two infinities. -/
  | infinity (negative : Bool)
  /-- The number of magnitude `units * 2 ^ -1074`.  Zero comes with both signs. -/
  | finite (negative : Bool) (units : Nat)
deriving Repr, DecidableEq

namespace Binary64

/-! ## 1. Units and the rounding of a quotient -/

/-- The number of units in one. -/
def one : Nat := twoTo 1074

/-- The number of units in the largest finite number. -/
def maxUnits : Nat := (twoTo 53 - 1) * twoTo 2045

/-- The distance in units between representable numbers whose magnitude is about `q` units. -/
def grid (q : Nat) : Nat := twoTo (Nat.log2 q + 1 - 53)

/-- The representable magnitude nearest to `num / den` units. -/
def roundUnits (num den : Nat) : Nat :=
  let step := grid (num / den)
  nearestEven num (den * step) * step

/-- The number nearest to `num / den` units, with the given sign. -/
def ofQuotient (negative : Bool) (num den : Nat) : Binary64 :=
  let units := roundUnits num den
  if maxUnits < units then .infinity negative else .finite negative units

/-- The number nearest to a natural number. -/
def ofNat (n : Nat) : Binary64 := ofQuotient false (n * one) 1

/-- The number nearest to an integer. -/
def ofInt (i : Int) : Binary64 := ofQuotient (i < 0) (i.natAbs * one) 1

/-- Zero with the positive sign. -/
def zero : Binary64 := .finite false 0

/-! ## 2. Order -/

/-- The position of a number among the units; infinities lie outside all finite numbers. -/
def position? : Binary64 → Option Int
  | .nan => none
  | .infinity negative => some (if negative then -(maxUnits + 1 : Int) else maxUnits + 1)
  | .finite negative units => some (if negative then -(units : Int) else units)

/-- Whether `x < y`; never when one of them is not a number. -/
def lt (x y : Binary64) : Bool :=
  match x.position?, y.position? with
  | some p, some q => p < q
  | _, _ => false

/-- Whether `x ≤ y`; never when one of them is not a number. -/
def le (x y : Binary64) : Bool :=
  match x.position?, y.position? with
  | some p, some q => p ≤ q
  | _, _ => false

/-- Whether the number is finite. -/
def isFinite : Binary64 → Bool
  | .finite _ _ => true
  | _ => false

/-- The smaller of two numbers.  If one of them is not a number, it is the other. -/
def min (x y : Binary64) : Binary64 :=
  match x, y with
  | .nan, _ => y
  | _, .nan => x
  | _, _ => if y.lt x then y else x

/-- The larger of two numbers.  If one of them is not a number, it is the other. -/
def max (x y : Binary64) : Binary64 :=
  match x, y with
  | .nan, _ => y
  | _, .nan => x
  | _, _ => if x.lt y then y else x

/-- The nearest number in the interval from `lo` to `hi`; what is not a number stays so. -/
def clamp (x lo hi : Binary64) : Binary64 :=
  let raised := if x.lt lo then lo else x
  if hi.lt raised then hi else raised

/-! ## 3. Arithmetic -/

/-- The number with the other sign. -/
def neg : Binary64 → Binary64
  | .nan => .nan
  | .infinity negative => .infinity (!negative)
  | .finite negative units => .finite (!negative) units

/-- The sum, rounded once.  A sum that is exactly zero has the positive sign unless both terms
have the negative one. -/
def add : Binary64 → Binary64 → Binary64
  | .nan, _ => .nan
  | _, .nan => .nan
  | .infinity s, .infinity t => if s == t then .infinity s else .nan
  | .infinity s, .finite _ _ => .infinity s
  | .finite _ _, .infinity t => .infinity t
  | .finite s u, .finite t v =>
    if s == t then ofQuotient s (u + v) 1
    else if u < v then ofQuotient t (v - u) 1
    else if v < u then ofQuotient s (u - v) 1
    else zero

/-- The product, rounded once. -/
def mul : Binary64 → Binary64 → Binary64
  | .nan, _ => .nan
  | _, .nan => .nan
  | .infinity s, .infinity t => .infinity (s != t)
  | .infinity s, .finite t v => if v == 0 then .nan else .infinity (s != t)
  | .finite s u, .infinity t => if u == 0 then .nan else .infinity (s != t)
  | .finite s u, .finite t v => ofQuotient (s != t) (u * v) one

/-- The quotient, rounded once. -/
def div : Binary64 → Binary64 → Binary64
  | .nan, _ => .nan
  | _, .nan => .nan
  | .infinity _, .infinity _ => .nan
  | .infinity s, .finite t _ => .infinity (s != t)
  | .finite s _, .infinity t => .finite (s != t) 0
  | .finite s u, .finite t v =>
    if v == 0 then if u == 0 then .nan else .infinity (s != t)
    else ofQuotient (s != t) (u * one) v

/-- Two to the power `n`. -/
def twoPow (n : Nat) : Binary64 := ofQuotient false (twoTo n * one) 1

end Binary64

end Shortlist.Number
