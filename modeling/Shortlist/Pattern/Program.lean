import Shortlist.Pattern.Basic

/-!
# Programs

An expression is turned into a program: a list of nodes that are known by their place in the list.
`Re.nodes` writes the nodes of an expression from a place on, such that the first of them is where
the expression begins and what follows the expression is at a given place.

Repetitions are written out.  A round that may be left out is a fork in front of it, and a
repetition without end is a fork behind its last round, which leads back to the beginning of that
round.  Where every round takes a character, the fork in front of the first round can also be the one
behind it.
-/

namespace Shortlist.Pattern

/-! ## 1. Nodes -/

/-- A node of a program. -/
inductive Node where
  /-- Takes a character of the class. -/
  | take (s : CharClass) (next : Nat)
  | check (a : Assertion) (next : Nat)
  | skip (next : Nat)
  /-- Goes on at either place; the first one is preferred. -/
  | fork (first second : Nat)
  | done
deriving Repr, DecidableEq

namespace Node

/-- A fork into a round and past it; a greedy one prefers the round. -/
def choose (greedy : Bool) (round past : Nat) : Node :=
  if greedy then .fork round past else .fork past round

end Node

/-! ## 2. The nodes of an expression -/

/-- The number of nodes of rounds that have `count` nodes each; `takes` tells whether every round
takes a character. -/
def roundsCount (takes : Bool) (count least : Nat) : Option Nat → Nat
  | none => if least == 0 then if takes then count + 1 else count + 2 else least * count + 1
  | some most => if most == 0 then 1 else most * count + (most - least)

/-- The number of nodes of an expression. -/
def Re.nodeCount : Re → Nat
  | .empty => 1
  | .literal _ cs => cs.length + 1
  | .set _ => 1
  | .assertion _ => 1
  | .group _ r => r.nodeCount
  | .seq a b => a.nodeCount + b.nodeCount
  | .alt a b => 1 + a.nodeCount + b.nodeCount
  | .repeated least most _ r => roundsCount r.takesSomething r.nodeCount least most

/-- The nodes that take the characters of a literal. -/
def literalNodes (start next : Nat) : Char → List Char → List Node
  | c, [] => [.take (CharClass.single c) next]
  | c, d :: ds => .take (CharClass.single c) (start + 1) :: literalNodes (start + 1) next d ds

/-- The rounds that cannot be left out: `least` times the nodes of a round, one behind the other. -/
def fixedRounds (round : (start next : Nat) → List Node) (count start least : Nat) : List Node :=
  (List.range least).flatMap fun i => round (start + i * count) (start + (i + 1) * count)

/-- Rounds that can be left out: `extra` times a fork and the nodes of a round, where every fork may
lead past all that follows. -/
def optionalRounds (round : (start next : Nat) → List Node) (count : Nat) (greedy : Bool)
    (start next extra : Nat) : List Node :=
  (List.range extra).flatMap fun i =>
    let here := start + i * (count + 1)
    let behind := if i + 1 == extra then next else here + (count + 1)
    Node.choose greedy (here + 1) next :: round (here + 1) behind

/-- A round and the fork behind it that leads back to it. -/
def endlessRounds (round : (start next : Nat) → List Node) (count : Nat) (greedy : Bool)
    (start next : Nat) : List Node :=
  round start (start + count) ++ [Node.choose greedy start next]

/-- The nodes of a repetition, given those of a round, of which there are `count`. -/
def repeatedNodes (round : (start next : Nat) → List Node) (takes : Bool) (count : Nat) (least : Nat)
    (most : Option Nat) (greedy : Bool) (start next : Nat) : List Node :=
  match most with
  | none =>
    if least == 0 then
      Node.choose greedy (start + 1) next ::
        if takes then round (start + 1) start
        else endlessRounds round count greedy (start + 1) next
    else
      fixedRounds round count start (least - 1) ++
        endlessRounds round count greedy (start + (least - 1) * count) next
  | some most =>
    if most == 0 then [.skip next]
    else if most == least then
      fixedRounds round count start (least - 1) ++ round (start + (least - 1) * count) next
    else
      fixedRounds round count start least ++
        optionalRounds round count greedy (start + least * count) next (most - least)

/-- The nodes of an expression from the place `start` on, where `next` is the place of what
follows. -/
def Re.nodes : Re → (start next : Nat) → List Node
  | .empty, _, next => [.skip next]
  | .literal c cs, start, next => literalNodes start next c cs
  | .set s, _, next => [.take s next]
  | .assertion a, _, next => [.check a next]
  | .group _ r, start, next => r.nodes start next
  | .seq a b, start, next =>
    let middle := start + a.nodeCount
    a.nodes start middle ++ b.nodes middle next
  | .alt a b, start, next =>
    let second := start + 1 + a.nodeCount
    .fork (start + 1) second :: (a.nodes (start + 1) next ++ b.nodes second next)
  | .repeated least most greedy r, start, next =>
    repeatedNodes r.nodes r.takesSomething r.nodeCount least most greedy start next

/-! ## 3. Programs -/

/-- The nodes of a program, which begins with the first one. -/
abbrev Program := Array Node

/-- The program of an expression. -/
def Re.program (r : Re) : Program := (r.nodes 0 r.nodeCount ++ [Node.done]).toArray

end Shortlist.Pattern
