import Shortlist.Json.Basic
import Shortlist.Number.Written
import Shortlist.Text.Lower

/-!
# Entries of the settings

Settings come from files and from the environment, where everything is text, so an entry is taken
for what it is meant to be: a number may be written as a text, a text as a number, and the words for
yes and no stand for 1 and 0.
-/

namespace Shortlist.Settings

open Json (Value)
open Number (Binary64)

/-! ## 1. Yes and no -/

/-- What a word for yes or no means, in any case. -/
def answer? (s : String) : Option Bool :=
  let word := Text.lower s
  if ["true", "on", "yes"].contains word then some true
  else if ["false", "off", "no"].contains word then some false
  else none

/-! ## 2. Numbers -/

/-- The largest natural number of 64 bits. -/
def maxNatural : Nat := Number.twoTo 64 - 1

/-- The natural number nearest to a number, the larger one from the middle between two.  It is 0 for
what is negative or not a number, and never more than `maxNatural`. -/
def nearestNatural : Binary64 → Nat
  | .nan => 0
  | .infinity negative => if negative then 0 else maxNatural
  | .finite negative units =>
    if negative then 0 else min (Number.nearestUp units Binary64.one) maxNatural

/-- The natural number that an entry stands for. -/
def naturalOf? : Value → Option Nat
  | .bool b => some b.toNat
  | .number (.integer n) => if 0 ≤ n then some n.toNat else none
  | .number (.real x) => some (nearestNatural x)
  | .string s =>
    match answer? s with
    | some b => some b.toNat
    | none => Number.natural? maxNatural s.toList
  | _ => none

/-- The natural number of at most `limit` that an entry stands for. -/
def boundedNatural? (limit : Nat) (v : Value) : Option Nat :=
  (naturalOf? v).filter (· ≤ limit)

/-- The real number that an entry stands for. -/
def realOf? : Value → Option Binary64
  | .bool b => some (Binary64.ofNat b.toNat)
  | .number (.integer n) => some (Binary64.ofInt n)
  | .number (.real x) => some x
  | .string s =>
    match answer? s with
    | some b => some (Binary64.ofNat b.toNat)
    | none => Number.real? s.toList
  | _ => none

/-! ## 3. Texts and lists -/

/-- Numbers are written without an exponent, and whole ones without a point; of two equally near
decimals the larger one is written. -/
def entryLayout : Number.Layout := ⟨-400, 400, false, .up⟩

/-- The text that an entry stands for. -/
def textOf? : Value → Option String
  | .bool b => some (if b then "true" else "false")
  | .number (.integer n) =>
    some ((if n < 0 then "-" else "") ++ String.ofList (Number.decimalDigits n.natAbs))
  | .number (.real x) => some (String.ofList (x.text entryLayout))
  | .string s => some s
  | _ => none

/-- The text that an entry stands for, or none where it is null. -/
def optionalTextOf? : Value → Option (Option String)
  | .null => some none
  | v => (textOf? v).map some

/-- What the items of a list stand for, given what one of them does. -/
def listOf? {α : Type} (item : Value → Option α) : Value → Option (List α)
  | .array vs => vs.mapM item
  | _ => none

/-- The choice that an entry names: by its name, or as a table with this name for its only key. -/
def choiceOf? {α : Type} (named : String → Option α) : Value → Option α
  | .string s => named s
  | .object [(key, _)] => named key
  | _ => none

end Shortlist.Settings
