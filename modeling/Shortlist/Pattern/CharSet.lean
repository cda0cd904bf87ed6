import Shortlist.Text.Blank
import Shortlist.Text.Fold
import Shortlist.Text.Word

/-!
# Sets of characters

The sets that a pattern can ask a single character to lie in.  A `CharSet` is the expression that
describes such a set; `has` evaluates it at one character, and `ranges` lists all characters of the set.
Letters match in any case, so a set that was written with letters is closed under case with `spellings`
before it is complemented.

What is left of a set when a pattern was read is its class, that is the list of its ranges.  Two sets of
the same characters have the same class, however they were written.
-/

namespace Shortlist.Pattern

/-! ## 1. Sets -/

/-- A set of characters. -/
inductive CharSet where
  /-- The characters from `first` to `last`. -/
  | span (first last : Char)
  /-- All spellings of a character. -/
  | letter (c : Char)
  | blank
  | digit
  | word
  /-- No character. -/
  | nothing
  | union (a b : CharSet)
  | inter (a b : CharSet)
  /-- All characters outside of `a`. -/
  | outside (a : CharSet)
  /-- All characters of which some spelling lies in `a`. -/
  | spellings (a : CharSet)
deriving Repr, DecidableEq

namespace CharSet

/-- Whether a character lies in the set. -/
def has : CharSet → Char → Bool
  | .span first last, c => first.toNat ≤ c.toNat && c.toNat ≤ last.toNat
  | .letter d, c => Text.fold c == Text.fold d
  | .blank, c => Text.isBlank c
  | .digit, c => Text.isDigit c
  | .word, c => Text.isWord c
  | .nothing, _ => false
  | .union a b, c => a.has c || b.has c
  | .inter a b, c => a.has c && b.has c
  | .outside a, c => !a.has c
  | .spellings a, c => (Text.orbit c).any a.has

/-- The code points of the set. -/
def ranges : CharSet → Text.Ranges
  | .span first last => if first.toNat ≤ last.toNat then [(first.toNat, last.toNat)] else []
  | .letter c => (Text.orbit c).foldl (fun all c => all.insert c.toNat c.toNat) []
  | .blank => Text.blankTable
  | .digit => Text.digitTable
  | .word => Text.wordTable
  | .nothing => []
  | .union a b => a.ranges.union b.ranges
  | .inter a b => a.ranges.inter b.ranges
  | .outside a => a.ranges.outside
  | .spellings a => a.ranges.spellings

/-- The set of one character. -/
def single (c : Char) : CharSet := .span c c

/-- The characters of `a` that are not in `b`. -/
def minus (a b : CharSet) : CharSet := .inter a (.outside b)

/-- The characters that are in exactly one of `a` and `b`. -/
def apart (a b : CharSet) : CharSet := .union (minus a b) (minus b a)

/-- Everything but the line feed. -/
def dot : CharSet := .outside (single '\n')

/-- The set between brackets: closed under case first, then complemented if asked for. -/
def bracketed (negated : Bool) (a : CharSet) : CharSet :=
  if negated then .outside (.spellings a) else .spellings a

/-- The union of sets. -/
def unions (sets : List CharSet) : CharSet := sets.foldr .union .nothing

/-- The union of spans. -/
def ofSpans (spans : List (Char × Char)) : CharSet :=
  spans.foldr (fun s rest => .union (.span s.1 s.2) rest) .nothing

/-- The ASCII classes that have a name. -/
def named? (name : String) : Option CharSet :=
  (match name with
    | "alnum" => some [('0', '9'), ('A', 'Z'), ('a', 'z')]
    | "alpha" => some [('A', 'Z'), ('a', 'z')]
    | "ascii" => some [('\x00', '\x7f')]
    | "blank" => some [('\t', '\t'), (' ', ' ')]
    | "cntrl" => some [('\x00', '\x1f'), ('\x7f', '\x7f')]
    | "digit" => some [('0', '9')]
    | "graph" => some [('!', '~')]
    | "lower" => some [('a', 'z')]
    | "print" => some [(' ', '~')]
    | "punct" => some [('!', '/'), (':', '@'), ('[', '`'), ('{', '~')]
    | "space" => some [('\t', '\r'), (' ', ' ')]
    | "upper" => some [('A', 'Z')]
    | "word" => some [('0', '9'), ('A', 'Z'), ('_', '_'), ('a', 'z')]
    | "xdigit" => some [('0', '9'), ('A', 'F'), ('a', 'f')]
    | _ => none).map ofSpans

/-- The characters of a list, added to a class one after another, are sorted. -/
theorem sorted_foldl_insert (cs : List Char) {a : Text.Ranges} (h : a.Sorted) :
    (cs.foldl (fun all c => all.insert c.toNat c.toNat) a).Sorted := by
  induction cs generalizing a with
  | nil => exact h
  | cons c cs ih => exact ih (h.insert (Nat.zero_le _) (Nat.le_refl _))

/-- **The ranges of a set** are sorted. -/
theorem sorted_ranges : ∀ s : CharSet, s.ranges.Sorted
  | .span first last => by
    rw [ranges]
    split
    · exact .cons (Nat.zero_le _) ‹_› .nil
    · exact .nil
  | .letter c => sorted_foldl_insert (Text.orbit c) .nil
  | .blank => Text.sorted_blankTable
  | .digit => Text.sorted_digitTable
  | .word => Text.sorted_wordTable
  | .nothing => .nil
  | .union a b => a.sorted_ranges.union b.sorted_ranges
  | .inter a b => a.sorted_ranges.inter b.sorted_ranges
  | .outside a => a.sorted_ranges.outside
  | .spellings a => a.sorted_ranges.spellings

end CharSet

/-! ## 2. Classes -/

/-- A class of characters: its code points as ranges, of which there is only one list. -/
structure CharClass where
  ranges : Text.Ranges
  sorted : ranges.Sorted
deriving Repr, DecidableEq

namespace CharClass

/-- Whether a character lies in the class. -/
def has (s : CharClass) (c : Char) : Bool := s.ranges.holds c

/-- The class of one character. -/
def single (c : Char) : CharClass := ⟨[(c.toNat, c.toNat)], .cons (Nat.zero_le _) (Nat.le_refl _) .nil⟩

/-- The class of no character. -/
def none : CharClass := ⟨[], .nil⟩

/-- The characters of either class. -/
def union (a b : CharClass) : CharClass := ⟨a.ranges.union b.ranges, a.sorted.union b.sorted⟩

/-- The characters of a list. -/
def ofList (cs : List Char) : CharClass := cs.foldr (fun c rest => union (single c) rest) none

/-- The union of classes. -/
def unions (classes : List CharClass) : CharClass := classes.foldr union none

/-- The character of a class that has a single one. -/
def char? (s : CharClass) : Option Char :=
  match s.ranges with
  | [(first, last)] =>
    if first == last && (Char.ofNat first).toNat == first then some (Char.ofNat first) else .none
  | _ => .none

end CharClass

/-- The class of the characters of a set. -/
def CharSet.toClass (s : CharSet) : CharClass := ⟨s.ranges, s.sorted_ranges⟩

end Shortlist.Pattern
