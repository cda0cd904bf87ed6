import Shortlist.Pattern.Table

/-!
# Compiling named tables

Tables are compiled one after another, and the first invalid one is reported by its name.
-/

namespace Shortlist.Pattern

variable [CharacterData]

/-- A table is invalid; the error names it. -/
structure InvalidPattern where
  table : String
deriving Repr, DecidableEq

/-- Compiles a table under its name. -/
def Table.compile (name : String) (patterns : List String) (wholeWords : Bool) :
    Except InvalidPattern Table :=
  match Table.compile? patterns wholeWords with
  | some t => .ok t
  | none => .error ⟨name⟩

end Shortlist.Pattern
