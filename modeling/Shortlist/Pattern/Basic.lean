import Shortlist.Pattern.CharSet

/-!
# Regular expressions

The expressions that patterns are read as.  An alternative that stands further left is preferred, and
so is one more round of a greedy repetition.

Expressions are put together in a simplified form: a sequence does not contain another one or the
empty expression, alternatives do not contain other alternatives, neighbouring characters without
case are one literal, alternatives that are single characters are one class, and what all alternatives
begin with is put in front of them.  The form decides how much room an expression takes, and also
what is preferred: what all alternatives begin with is matched before one of them is chosen.
-/

namespace Shortlist.Pattern

/-! ## 1. Assertions -/

/-- A condition on a place between two characters. -/
inductive Assertion where
  | wordBoundary
  | notWordBoundary
  | wordStart
  | wordEnd
  | wordStartHalf
  | wordEndHalf
  | textStart
  | textEnd
deriving Repr, DecidableEq

/-- A place in a text: the character before it and the one behind it, if there are such. -/
structure Place where
  before : Option Char
  behind : Option Char
deriving Repr, DecidableEq

/-- Whether an assertion holds at a place. -/
def Assertion.holds (p : Place) : Assertion → Bool
  | .wordBoundary => p.before.any Text.isWord != p.behind.any Text.isWord
  | .notWordBoundary => p.before.any Text.isWord == p.behind.any Text.isWord
  | .wordStart => !p.before.any Text.isWord && p.behind.any Text.isWord
  | .wordEnd => p.before.any Text.isWord && !p.behind.any Text.isWord
  | .wordStartHalf => !p.before.any Text.isWord
  | .wordEndHalf => !p.behind.any Text.isWord
  | .textStart => p.before.isNone
  | .textEnd => p.behind.isNone

/-! ## 2. Expressions -/

/-- A regular expression. -/
inductive Re where
  | empty
  /-- Characters one behind the other, each of them as it is. -/
  | literal (first : Char) (more : List Char)
  | set (s : CharClass)
  | assertion (a : Assertion)
  /-- The group with a number. -/
  | group (number : Nat) (r : Re)
  | seq (a b : Re)
  | alt (a b : Re)
  /-- At least `least` rounds and at most `most`, if there is a limit. -/
  | repeated (least : Nat) (most : Option Nat) (greedy : Bool) (r : Re)
deriving Repr, DecidableEq

namespace Re

/-- Whether the expression can match nothing but the empty text. -/
def takesNothing : Re → Bool
  | .empty => true
  | .literal _ _ => false
  | .set _ => false
  | .assertion _ => true
  | .group _ r => r.takesNothing
  | .seq a b => a.takesNothing && b.takesNothing
  | .alt a b => a.takesNothing && b.takesNothing
  | .repeated _ _ _ r => r.takesNothing

/-- Whether every match of the expression takes a character. -/
def takesSomething : Re → Bool
  | .empty => false
  | .literal _ _ => true
  | .set _ => true
  | .assertion _ => false
  | .group _ r => r.takesSomething
  | .seq a b => a.takesSomething || b.takesSomething
  | .alt a b => a.takesSomething && b.takesSomething
  | .repeated least _ _ r => 0 < least && r.takesSomething

/-! ## 3. Single characters -/

/-- One character of a class.  A class of one character is that character. -/
def ofClass (s : CharClass) : Re :=
  match s.char? with
  | some c => .literal c []
  | none => .set s

/-- One character of a set. -/
def ofSet (s : CharSet) : Re := ofClass s.toClass

/-- The character that the expression stands for, if it is a literal of one character. -/
def char? : Re → Option Char
  | .literal c [] => some c
  | _ => none

/-- The class that the expression stands for. -/
def class? : Re → Option CharClass
  | .set s => some s
  | _ => none

/-! ## 4. Sequences -/

/-- The parts of a sequence. -/
def parts : Re → List Re
  | .empty => []
  | .seq a b => a :: b.parts
  | r => [r]

/-- Joins neighbouring literals. -/
def joinLiterals : List Re → List Re
  | [] => []
  | r :: rest =>
    match r, joinLiterals rest with
    | .literal c cs, .literal d ds :: behind => .literal c (cs ++ d :: ds) :: behind
    | r, rest => r :: rest

/-- The sequence with these parts. -/
def chain : List Re → Re
  | [] => .empty
  | [r] => r
  | r :: rest => .seq r (chain rest)

/-- The expressions one behind the other. -/
def sequence (rs : List Re) : Re := chain (joinLiterals (rs.flatMap parts))

/-! ## 5. Alternatives -/

/-- The alternatives of an expression. -/
def branches : Re → List Re
  | .alt a b => a :: b.branches
  | r => [r]

/-- The expression with these alternatives. -/
def alternatives : List Re → Re
  | [] => .empty
  | [r] => r
  | r :: rest => .alt r (alternatives rest)

/-- The class that all alternatives together are, if each of them is a single character or each is a
class. -/
def joinedClass? (rs : List Re) : Option CharClass :=
  match rs.mapM char? with
  | some cs => some (CharClass.ofList cs)
  | none => (rs.mapM class?).map CharClass.unions

/-- The alternatives, the preferred one first. -/
def plainChoice (rs : List Re) : Re :=
  match rs.flatMap branches with
  | [r] => r
  | rs =>
    match joinedClass? rs with
    | some s => ofClass s
    | none => alternatives rs

/-- The parts that two sequences begin with. -/
def sharedParts : List Re → List Re → List Re
  | a :: as, b :: bs => if a == b then a :: sharedParts as bs else []
  | _, _ => []

/-- The parts that all sequences begin with; none unless all have at least two parts. -/
def sharedByAll (sequences : List (List Re)) : List Re :=
  match sequences with
  | [] => []
  | first :: rest =>
    if sequences.all (2 ≤ ·.length) then rest.foldl sharedParts first else []

/-- The alternatives, the preferred one first.  What all begin with is put in front of them. -/
def choice (rs : List Re) : Re :=
  match plainChoice rs with
  | .alt a b =>
    let sequences := (alt a b).branches.map parts
    let shared := sharedByAll sequences
    if shared.isEmpty then .alt a b
    else
      let remaining := sequences.map fun parts => sequence (parts.drop shared.length)
      sequence (shared ++ [plainChoice remaining])
  | r => r

/-! ## 6. Repetitions -/

/-- The expression repeated.  More than one round of what takes nothing is the same as one round. -/
def repetition (least : Nat) (most : Option Nat) (greedy : Bool) (r : Re) : Re :=
  let once := r.takesNothing
  let least := if once then min least 1 else least
  let most := if once then some (min (most.getD 1) 1) else most
  if most == some 0 then .empty
  else if least == 1 && most == some 1 then r
  else .repeated least most greedy r

end Re

end Shortlist.Pattern
