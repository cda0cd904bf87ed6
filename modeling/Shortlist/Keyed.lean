/-!
# Lists with sorted keys

A list of pairs in increasing order of their texts, without two pairs of one key.  `insert` keeps
both properties and replaces the value of a key that is there.
-/

namespace Shortlist

/-- Pairs of a key and a value; the keys increase from pair to pair. -/
abbrev Keyed (α : Type) := List (String × α)

namespace Keyed

variable {α : Type}

/-- Sets the value of a key. -/
def insert (key : String) (value : α) : Keyed α → Keyed α
  | [] => [(key, value)]
  | (k, v) :: rest =>
    if key < k then (key, value) :: (k, v) :: rest
    else if key = k then (key, value) :: rest
    else (k, v) :: insert key value rest

/-- The value of a key. -/
def find? (key : String) : Keyed α → Option α
  | [] => none
  | (k, v) :: rest => if key = k then some v else find? key rest

/-- The pairs whose keys pass a test. -/
def keep (test : String → Bool) (m : Keyed α) : Keyed α := m.filter fun pair => test pair.1

/-- Inserts all pairs, in order: the last value of a key stays. -/
def insertAll (pairs : List (String × α)) (m : Keyed α) : Keyed α :=
  pairs.foldl (fun acc pair => insert pair.1 pair.2 acc) m

end Keyed

end Shortlist
