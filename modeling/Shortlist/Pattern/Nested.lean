/-!
# Nested values

A value that was read from a text together with the number of levels that are nested in it.  Several
values side by side form one more level; a single one does not.
-/

namespace Shortlist.Pattern

/-- A value and the number of its levels. -/
structure Nested (α : Type) where
  value : α
  levels : Nat
deriving Repr, DecidableEq

namespace Nested

variable {α β γ : Type}

/-- A value without levels. -/
def flat (a : α) : Nested α := ⟨a, 0⟩

/-- Another value with the same levels. -/
def map (f : α → β) (n : Nested α) : Nested β := ⟨f n.value, n.levels⟩

/-- The value, one level further in. -/
def deeper (n : Nested α) : Nested α := ⟨n.value, n.levels + 1⟩

/-- A value made of two, with the levels of the deeper one. -/
def join (f : α → β → γ) (a : Nested α) (b : Nested β) : Nested γ :=
  ⟨f a.value b.value, max a.levels b.levels⟩

/-- A value made of several ones side by side. -/
def beside (f : List α → β) (ns : List (Nested α)) : Nested β :=
  let deepest := ns.foldl (fun levels n => max levels n.levels) 0
  ⟨f (ns.map Nested.value), if 2 ≤ ns.length then deepest + 1 else deepest⟩

end Nested

end Shortlist.Pattern
