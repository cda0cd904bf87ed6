import Shortlist.Pattern.Token

/-!
# Parsing patterns

The tokens of a pattern are read from left to right with a stack of open groups.  A group that is
being read consists of the alternatives that are finished and of the pieces of the one that is not.
A pattern is invalid when a parenthesis has no partner, a repetition has nothing to repeat, two groups
have the same name, or its parts are nested too deeply.
-/

namespace Shortlist.Pattern

variable [CharacterData]

/-! ## 1. Groups -/

/-- A group that is being read; both lists have the latest element first. -/
structure Group where
  /-- The number of the group, if it has one. -/
  number : Option Nat
  alternatives : List (Nested Re)
  pieces : List (Nested Re)
deriving Repr, DecidableEq

namespace Group

/-- A group of which nothing was read. -/
def start (number : Option Nat) : Group := ⟨number, [], []⟩

/-- Adds a piece to the alternative that is being read. -/
def add (g : Group) (r : Nested Re) : Group := { g with pieces := r :: g.pieces }

/-- Begins the next alternative. -/
def next (g : Group) : Group :=
  ⟨g.number, Nested.beside Re.sequence g.pieces.reverse :: g.alternatives, []⟩

/-- The expression of what stands in the group. -/
def content (g : Group) : Nested Re := Nested.beside Re.choice g.next.alternatives.reverse

/-- The expression of the finished group. -/
def close (g : Group) : Nested Re :=
  match g.number with
  | some n => (g.content.map (Re.group n)).deeper
  | none => g.content.deeper

end Group

/-! ## 2. Reading tokens -/

/-- What was read of a pattern: the innermost open group, those around it, how many groups have a number,
and the names that groups have, the latest first. -/
structure Reader where
  group : Group
  around : List Group
  numbered : Nat
  names : List String
deriving Repr, DecidableEq

namespace Reader

/-- Nothing was read. -/
def start : Reader := ⟨Group.start none, [], 0, []⟩

/-- Opens a group with the next number, or without one. -/
def enter (r : Reader) (isNumbered : Bool) : Reader :=
  let numbered := if isNumbered then r.numbered + 1 else r.numbered
  { r with
    group := Group.start (if isNumbered then some numbered else none)
    around := r.group :: r.around
    numbered }

/-- Reads one token. -/
def step? (r : Reader) : Token → Option Reader
  | .opening .plain => some (r.enter false)
  | .opening .numbered => some (r.enter true)
  | .opening (.named name) =>
    if name ∈ r.names then none else some { r.enter true with names := name :: r.names }
  | .closing =>
    match r.around with
    | [] => none
    | outer :: rest => some { r with group := outer.add r.group.close, around := rest }
  | .bar => some { r with group := r.group.next }
  | .atom a => some { r with group := r.group.add a }
  | .repetition least most greedy =>
    match r.group.pieces with
    | [] => none
    | last :: rest =>
      let repeated := (last.map (Re.repetition least most greedy)).deeper
      some { r with group := { r.group with pieces := repeated :: rest } }

/-- The expression, once all tokens were read and all groups are closed. -/
def finish? (r : Reader) : Option (Nested Re) :=
  if r.around.isEmpty then some r.group.content else none

end Reader

/-! ## 3. Patterns -/

/-- The expression that tokens stand for. -/
def Re.ofTokens? (ts : List Token) : Option (Nested Re) :=
  (ts.foldlM Reader.step? Reader.start).bind Reader.finish?

/-- How many levels may be nested in a pattern. -/
def maxLevels : Nat := 250

/-- The expression that a pattern stands for; none for an invalid one. -/
def Re.parse? (cs : List Char) : Option Re :=
  (((tokens cs).bind Re.ofTokens?).filter (·.levels ≤ maxLevels)).map Nested.value

end Shortlist.Pattern
