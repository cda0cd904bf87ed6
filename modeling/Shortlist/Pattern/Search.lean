import Shortlist.Pattern.Program

/-!
# Matching

A program is run by taking one character at a time.  `Program.reach` lists, in order of preference,
the nodes that wait for a character and can be reached at a place without taking one: a node that was
reached before is not entered again, and where the program is done, nothing behind it is listed.
`Program.run` follows all of them side by side.  So the match that is found at a place is the one
that a reader who always tries the preferred way first would find, and of all places the leftmost
one counts.
-/

namespace Shortlist.Pattern

/-! ## 1. What can be reached at a place -/

/-- What a program can do at a place. -/
structure Reach where
  /-- The characters that can be taken and the nodes behind them, the preferred ones first. -/
  takes : List (CharClass × Nat)
  /-- Whether the program can be done without taking a character; nothing is preferred less. -/
  done : Bool
deriving Repr, DecidableEq

/-- The nodes behind a character that is taken. -/
def Reach.after (r : Reach) (c : Char) : List Nat :=
  r.takes.filterMap fun (s, next) => if s.has c then some next else none

namespace Program

/-- Goes through the nodes `ahead`, the preferred one first; `seen` marks the nodes that were entered,
and `takes` holds what was found so far, last one first.  Every node is entered at most once, and
every entered node adds at most two more ahead, so `steps` may be twice the number of nodes and the
number of those ahead. -/
def explore (program : Program) (p : Place) :
    (steps : Nat) → (ahead : List Nat) → (seen : Array Bool) → (takes : List (CharClass × Nat)) → Reach
  | 0, _, _, takes => ⟨takes.reverse, false⟩
  | _, [], _, takes => ⟨takes.reverse, false⟩
  | steps + 1, i :: ahead, seen, takes =>
    if seen.getD i true then program.explore p steps ahead seen takes
    else
      let seen := seen.setIfInBounds i true
      match program[i]? with
      | some (.take s next) => program.explore p steps ahead seen ((s, next) :: takes)
      | some (.check a next) =>
        program.explore p steps (if a.holds p then next :: ahead else ahead) seen takes
      | some (.skip next) => program.explore p steps (next :: ahead) seen takes
      | some (.fork first second) =>
        program.explore p steps (first :: second :: ahead) seen takes
      | some .done => ⟨takes.reverse, true⟩
      | none => ⟨takes.reverse, false⟩

/-- What can be reached from nodes of which each is preferred to those behind it. -/
def reach (program : Program) (p : Place) (nodes : List Nat) : Reach :=
  program.explore p (2 * program.size + nodes.length) nodes
    (Array.replicate program.size false) []

/-! ## 2. Matching at one place -/

/-- Follows the nodes `threads`, of which each is preferred to those behind it, from the place
behind `before`.  The answer is the number of characters of the match, counted on from `taken`;
`found` is the match that is taken if nothing preferred to it is found. -/
def run (program : Program) (threads : List Nat) (before : Option Char) (taken : Nat)
    (found : Option Nat) : List Char → Option Nat
  | [] => if (program.reach ⟨before, none⟩ threads).done then some taken else found
  | c :: rest =>
    let reach := program.reach ⟨before, some c⟩ threads
    let found := if reach.done then some taken else found
    match reach.after c with
    | [] => found
    | threads => program.run threads (some c) (taken + 1) found rest

/-- The length of the preferred match at the front of a text that stands behind `before`. -/
def matchAt (program : Program) (before : Option Char) (cs : List Char) : Option Nat :=
  program.run [0] before 0 none cs

/-! ## 3. Searching -/

/-- Whether the program matches somewhere in a text that stands behind `before`. -/
def foundIn (program : Program) (before : Option Char) : List Char → Bool
  | [] => (program.matchAt before []).isSome
  | c :: rest => (program.matchAt before (c :: rest)).isSome || program.foundIn (some c) rest

/-- The texts of all matches from left to right.  A match begins where the one before it ended or
behind it; an empty match directly behind another match is passed over.  `skip` characters still
belong to the last match, and `adjacent` tells that it ends where they do. -/
def occurrencesFrom (program : Program) (before : Option Char) (skip : Nat) (adjacent : Bool) :
    List Char → List (List Char)
  | [] =>
    match program.matchAt before [] with
    | some _ => if adjacent then [] else [[]]
    | none => []
  | c :: rest =>
    match skip with
    | skip + 1 => program.occurrencesFrom (some c) skip adjacent rest
    | 0 =>
      match program.matchAt before (c :: rest) with
      | some (n + 1) => (c :: rest).take (n + 1) :: program.occurrencesFrom (some c) n true rest
      | some 0 =>
        if adjacent then program.occurrencesFrom (some c) 0 false rest
        else [] :: program.occurrencesFrom (some c) 0 false rest
      | none => program.occurrencesFrom (some c) 0 false rest

/-- The texts of all matches from left to right. -/
def occurrences (program : Program) (cs : List Char) : List (List Char) :=
  program.occurrencesFrom none 0 false cs

end Program

end Shortlist.Pattern
