import Shortlist.Record.Basic

/-!
# Removing duplicates

Two records with the same link are the same posting.  The links seen so far are remembered; a record
passes if its link was not seen before, and always if its link is empty.
-/

namespace Shortlist

/-- The links that were seen, without repetitions. -/
structure SeenLinks where
  links : List String
deriving Repr, DecidableEq

namespace SeenLinks

/-- No link was seen. -/
def empty : SeenLinks := ⟨[]⟩

/-- How many links were seen. -/
def count (s : SeenLinks) : Nat := s.links.length

/-- Offers a record: whether it passes, and the links seen afterwards. -/
def offer (s : SeenLinks) (r : Record) : Bool × SeenLinks :=
  if r.link == "" then (true, s)
  else if s.links.contains r.link then (false, s)
  else (true, ⟨r.link :: s.links⟩)

end SeenLinks

end Shortlist
