import Shortlist.Keyed
import Shortlist.Number.Binary64

/-!
# JSON values

A number is an integer of 64 bits or a double precision number, and stays what it was read as.  The
members of an object are kept sorted by key.
-/

namespace Shortlist.Json

open Shortlist.Number (Binary64)

/-- A number of a JSON text: the integers from `-2 ^ 63` to `2 ^ 64 - 1` are kept exactly. -/
inductive Numeral where
  | integer (value : Int)
  | real (value : Binary64)
deriving Repr, DecidableEq

/-- A JSON value. -/
inductive Value where
  | null
  | bool (value : Bool)
  | number (value : Numeral)
  | string (value : String)
  | array (items : List Value)
  | object (members : List (String × Value))
deriving Repr, Inhabited

namespace Value

/-! ## 1. Equality -/

mutual

/-- Whether two values are the same. -/
def same : Value → Value → Bool
  | .null, .null => true
  | .bool a, .bool b => a == b
  | .number a, .number b => a == b
  | .string a, .string b => a == b
  | .array as, .array bs => sameItems as bs
  | .object as, .object bs => sameMembers as bs
  | _, _ => false

/-- Whether two lists of items are the same. -/
def sameItems : List Value → List Value → Bool
  | [], [] => true
  | a :: as, b :: bs => same a b && sameItems as bs
  | _, _ => false

/-- Whether two lists of members are the same. -/
def sameMembers : List (String × Value) → List (String × Value) → Bool
  | [], [] => true
  | (k, a) :: as, (l, b) :: bs => k == l && same a b && sameMembers as bs
  | _, _ => false

end

mutual

/-- **The comparison decides equality** of values … -/
theorem same_iff : ∀ a b : Value, same a b = true ↔ a = b
  | .null, b => by cases b <;> simp [same]
  | .bool _, b => by cases b <;> simp [same]
  | .number _, b => by cases b <;> simp [same]
  | .string _, b => by cases b <;> simp [same]
  | .array as, b => by cases b <;> simp [same, sameItems_iff as]
  | .object as, b => by cases b <;> simp [same, sameMembers_iff as]

/-- … of items … -/
theorem sameItems_iff : ∀ as bs : List Value, sameItems as bs = true ↔ as = bs
  | [], bs => by cases bs <;> simp [sameItems]
  | a :: as, bs => by cases bs <;> simp [sameItems, same_iff a, sameItems_iff as]

/-- … and of members. -/
theorem sameMembers_iff : ∀ as bs : List (String × Value), sameMembers as bs = true ↔ as = bs
  | [], bs => by cases bs <;> simp [sameMembers]
  | (k, a) :: as, bs => by
    cases bs with
    | nil => simp [sameMembers]
    | cons m bs =>
      obtain ⟨l, b⟩ := m
      simp [sameMembers, same_iff a, sameMembers_iff as]

end

instance : DecidableEq Value := fun a b => decidable_of_iff _ (same_iff a b)

/-! ## 2. Objects -/

/-- The value of a member of an object; none for other values. -/
def member? (key : String) : Value → Option Value
  | .object members => Keyed.find? key members
  | _ => none

/-- The name that a value gives: a string, or an object whose only member is null. -/
def name? : Value → Option String
  | .string s => some s
  | .object [(key, .null)] => some key
  | _ => none

end Value

end Shortlist.Json
