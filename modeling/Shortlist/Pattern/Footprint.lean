import Shortlist.Pattern.Basic
import Shortlist.Text.Utf8

/-!
# The room an expression takes

An expression is matched byte by byte, by one automaton from the front and by another from the back of
a match.  Here it is computed how many bytes of memory the two automata take: one state takes 32
bytes, with 8 more for every range of bytes it can go on with if it chooses by the next byte, and with 4
more for every way out of a fork.  A repetition takes the room of what is repeated as often as that
is written out.  A pattern whose automata are too large is invalid.
-/

namespace Shortlist.Pattern

open Text.Utf8 (ByteRange)

/-! ## 1. Bytes -/

/-- The bytes of the automata that read forward and backward. -/
structure Footprint where
  forward : Nat
  backward : Nat
deriving Repr, DecidableEq

namespace Footprint

/-- The same number of bytes in both directions. -/
def both (bytes : Nat) : Footprint := ⟨bytes, bytes⟩

/-- Both footprints together. -/
def add (a b : Footprint) : Footprint := ⟨a.forward + b.forward, a.backward + b.backward⟩

/-- The footprint of `n` copies. -/
def times (n : Nat) (a : Footprint) : Footprint := ⟨n * a.forward, n * a.backward⟩

/-- Several footprints together. -/
def total (fs : List Footprint) : Footprint := fs.foldl add (both 0)

/-- A state with one way out. -/
def state : Footprint := both 32

/-- A fork of two ways. -/
def fork : Footprint := both 40

end Footprint

/-! ## 2. Sets -/

/-- Neighbouring sequences with the same first range, and what follows it in each of them. -/
def firstRanges : List (List ByteRange) → List (ByteRange × List (List ByteRange))
  | [] => []
  | [] :: rest => firstRanges rest
  | (first :: behind) :: rest =>
    match firstRanges rest with
    | (next, tails) :: more =>
      if first == next then (first, behind :: tails) :: more
      else (first, [behind]) :: (next, tails) :: more
    | [] => [(first, [behind])]

/-- The places inside of sequences of at most `length` ranges, each given by what can follow there. -/
def continuations : (length : Nat) → List (List ByteRange) → List (List (List ByteRange))
  | 0, _ => []
  | length + 1, sequences =>
    if sequences.all List.isEmpty then []
    else sequences :: (firstRanges sequences).flatMap fun r => continuations length r.2

/-- How many different nonempty beginnings sequences of at most `length` ranges have. -/
def beginnings : (length : Nat) → List (List ByteRange) → Nat
  | 0, _ => 0
  | length + 1, sequences =>
    (firstRanges sequences).foldl (fun count r => count + 1 + beginnings length r.2) 0

/-- The bytes of a state that chooses among `count` ranges. -/
def choosingBytes (count : Nat) : Nat := 32 + 8 * count

/-- The footprint of a class.  Forward there is one state for all places at which the same can
follow; backward there is one for every beginning, and a fork of all sequences. -/
def classFootprint (ranges : Text.Ranges) : Footprint :=
  if ranges.all (·.2 < 128) then Footprint.both (32 + choosingBytes ranges.length)
  else
    let sequences := ranges.flatMap fun r => Text.Utf8.sequences r.1 r.2
    let states := (continuations 4 sequences).eraseDups
    ⟨states.foldl (fun bytes s => bytes + choosingBytes (firstRanges s).length) 32,
      64 + 4 * sequences.length + 32 * beginnings 4 sequences⟩

/-- The footprint of the class of word characters. -/
def wordFootprint : Footprint := classFootprint Text.wordTable

/-- The footprint of a class; that of the word characters is known. -/
def CharClass.footprint (s : CharClass) : Footprint :=
  if s.ranges == Text.wordTable then wordFootprint else classFootprint s.ranges

/-! ## 3. Expressions -/

/-- The footprint of a repetition, given that of what is repeated and whether every round of it
takes a character. -/
def Footprint.repeated (round : Footprint) (takes : Bool) (least : Nat) (most : Option Nat) :
    Footprint :=
  match most, least with
  | none, 0 => round.add (if takes then fork else total [fork, fork, state])
  | none, least => (round.times least).add fork
  | some 1, 0 => total [round, fork, state]
  | some most, least =>
    let copies := round.times most
    if least == most then if most == 0 then state else copies
    else total [copies, fork.times (most - least), state, if least == 0 then state else both 0]

/-- The footprint of an expression. -/
def Re.footprint : Re → Footprint
  | .empty => Footprint.state
  | .literal c cs => Footprint.both (32 * Text.Utf8.byteCount (c :: cs))
  | .set s => s.footprint
  | .assertion _ => Footprint.state
  | .group _ r => Footprint.add ⟨64, 0⟩ r.footprint
  | .seq a b => a.footprint.add b.footprint
  | .alt a b =>
    -- One fork and one joint serve all alternatives.
    let more := match b with
      | .alt _ _ => 4
      | _ => 72
    Footprint.total [a.footprint, b.footprint, Footprint.both more]
  | .repeated least most _ r => r.footprint.repeated r.takesSomething least most

/-! ## 4. The limit -/

/-- The footprint of what looks for the beginning of a match and marks its ends. -/
def searchFootprint : Footprint := ⟨208, 144⟩

/-- The largest number of bytes of an automaton. -/
def maxBytes : Nat := 10 * Number.twoTo 20

/-- Whether the automata of an expression are small enough. -/
def Re.fits (r : Re) : Bool :=
  let f := searchFootprint.add r.footprint
  f.forward ≤ maxBytes && f.backward ≤ maxBytes

end Shortlist.Pattern
