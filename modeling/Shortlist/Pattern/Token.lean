import Shortlist.Pattern.Basic
import Shortlist.Pattern.Nested
import Shortlist.Pattern.Property
import Shortlist.Number.Decimal
import Shortlist.Number.Hexadecimal

/-!
# Tokens of a pattern

`tokens` cuts the text of a pattern into parentheses, bars, repetitions and atoms.  Escapes, sets in
brackets, counts in braces and names of groups are read here; how parentheses, bars and repetitions
combine the atoms is not looked at.  Brackets nest, so an atom comes with the number of levels it has.  A
piece of text that is no token makes the whole pattern invalid.

One part of the syntax of regular expressions is left out: flags, which change how the rest of a group is
read.  Neither `(?i)` nor `(?i:a)` is read, nor is any other flag, and a pattern with flags counts as
invalid here.  So what is said about patterns that are invalid is said about patterns without flags.
-/

namespace Shortlist.Pattern

variable [CharacterData]

/-- The group that a parenthesis opens. -/
inductive Opening where
  /-- A group that is not numbered. -/
  | plain
  | numbered
  /-- A numbered group that has a name, too. -/
  | named (name : String)
deriving Repr, DecidableEq

/-- A piece of the text of a pattern. -/
inductive Token where
  | opening (group : Opening)
  | closing
  | bar
  | atom (r : Nested Re)
  | repetition (least : Nat) (most : Option Nat) (greedy : Bool)
deriving Repr, DecidableEq

/-! ## 1. Escapes -/

/-- What a backslash and the text behind it stand for. -/
inductive Escape where
  | literal (c : Char)
  | set (s : CharSet)
  | assertion (a : Assertion)
deriving Repr, DecidableEq

/-- The ASCII characters other than letters, digits and angle brackets stand for themselves behind
a backslash. -/
def escapable (c : Char) : Bool :=
  c.toNat < 128 && !c.isAlphanum && c != '<' && c != '>'

/-- The letters and the hyphen, which name the variants of a word boundary. -/
def namesBoundary (c : Char) : Bool := c.isAlpha || c == '-'

/-- The variant of a word boundary with a name. -/
def boundaryNamed? (name : String) : Option Assertion :=
  match name with
  | "start" => some .wordStart
  | "end" => some .wordEnd
  | "start-half" => some .wordStartHalf
  | "end-half" => some .wordEndHalf
  | _ => none

/-- Reads what follows `\b`: a variant in braces, or nothing. -/
def boundary? : List Char → Option (Assertion × List Char)
  | '{' :: c :: rest =>
    if !namesBoundary c then some (.wordBoundary, '{' :: c :: rest)
    else
      match (c :: rest).dropWhile namesBoundary with
      | '}' :: behind =>
        (boundaryNamed? (String.ofList ((c :: rest).takeWhile namesBoundary))).map (·, behind)
      | _ => none
  | '{' :: [] => none
  | rest => some (.wordBoundary, rest)

/-- Reads the number of a character in base sixteen: `count` digits, or any digits in braces. -/
def hexEscape? (count : Nat) : List Char → Option (Escape × List Char)
  | '{' :: rest =>
    match rest.dropWhile (· != '}') with
    | _ :: behind =>
      let digits := rest.takeWhile (· != '}')
      if digits.isEmpty then none else (Number.hexChar? digits).map (.literal ·, behind)
    | [] => none
  | cs =>
    if cs.length < count then none
    else (Number.hexChar? (cs.take count)).map (.literal ·, cs.drop count)

/-- Reads the name of a property behind `\p` or `\P`: the text in braces, or a single character. -/
def propertyName? : List Char → Option (String × List Char)
  | [] => none
  | '\\' :: _ => none
  | '{' :: rest =>
    match rest.dropWhile (· != '}') with
    | _ :: behind => some (String.ofList (rest.takeWhile (· != '}')), behind)
    | [] => none
  | c :: rest => some (String.singleton c, rest)

/-- Reads the characters with a property, or those without it.  They are closed under case first. -/
def property? (negated : Bool) (cs : List Char) : Option (Escape × List Char) :=
  match propertyName? cs with
  | none => none
  | some (name, rest) =>
    (CharacterData.property? name).map fun s => (.set (CharSet.bracketed negated s), rest)

/-- Reads an escape behind its backslash. -/
def escape? : List Char → Option (Escape × List Char)
  | [] => none
  | 'd' :: rest => some (.set .digit, rest)
  | 'D' :: rest => some (.set (.outside .digit), rest)
  | 's' :: rest => some (.set .blank, rest)
  | 'S' :: rest => some (.set (.outside .blank), rest)
  | 'w' :: rest => some (.set .word, rest)
  | 'W' :: rest => some (.set (.outside .word), rest)
  | 'p' :: rest => property? false rest
  | 'P' :: rest => property? true rest
  | 'a' :: rest => some (.literal '\x07', rest)
  | 'f' :: rest => some (.literal '\x0c', rest)
  | 't' :: rest => some (.literal '\t', rest)
  | 'n' :: rest => some (.literal '\n', rest)
  | 'r' :: rest => some (.literal '\r', rest)
  | 'v' :: rest => some (.literal '\x0b', rest)
  | 'x' :: rest => hexEscape? 2 rest
  | 'u' :: rest => hexEscape? 4 rest
  | 'U' :: rest => hexEscape? 8 rest
  | 'A' :: rest => some (.assertion .textStart, rest)
  | 'z' :: rest => some (.assertion .textEnd, rest)
  | 'B' :: rest => some (.assertion .notWordBoundary, rest)
  | '<' :: rest => some (.assertion .wordStart, rest)
  | '>' :: rest => some (.assertion .wordEnd, rest)
  | 'b' :: rest => (boundary? rest).map fun (a, rest) => (.assertion a, rest)
  | c :: rest => if escapable c then some (.literal c, rest) else none

/-! ## 2. Counts in braces -/

/-- The largest count. -/
def maxCount : Nat := Number.twoTo 32 - 1

/-- Reads a count and the blanks around it. -/
def count? (cs : List Char) : Option (Nat × List Char) :=
  let digits := (cs.dropWhile Text.isBlank).takeWhile Char.isDigit
  let rest := ((cs.dropWhile Text.isBlank).dropWhile Char.isDigit).dropWhile Text.isBlank
  let n := Number.natOfDigits digits
  if digits.isEmpty || maxCount < n then none else some (n, rest)

/-- Reads the least and the greatest number of rounds, behind the opening brace. -/
def counts? (cs : List Char) : Option (Nat × Option Nat × List Char) :=
  match count? cs with
  | some (n, '}' :: rest) => some (n, some n, rest)
  | some (n, ',' :: '}' :: rest) => some (n, none, rest)
  | some (n, ',' :: rest) =>
    match count? rest with
    | some (m, '}' :: rest) => if n ≤ m then some (n, some m, rest) else none
    | _ => none
  | _ => none

/-- A repetition and the question mark that makes it prefer fewer rounds. -/
def repetition (least : Nat) (most : Option Nat) : List Char → Token × List Char
  | '?' :: rest => (.repetition least most false, rest)
  | rest => (.repetition least most true, rest)

/-! ## 3. Sets in brackets -/

/-- The operators between the sets of a bracket. -/
inductive SetOperator where
  | both
  | minus
  | apart
deriving Repr, DecidableEq

/-- The value of an operator.  Its operands are closed under case. -/
def SetOperator.apply (op : SetOperator) (a b : CharSet) : CharSet :=
  let left := CharSet.spellings a
  let right := CharSet.spellings b
  match op with
  | .both => .inter left right
  | .minus => CharSet.minus left right
  | .apart => CharSet.apart left right

/-- A bracket that is being read: the operand in front of the last operator, and the items that were
gathered behind it, latest first. -/
structure Bracket where
  negated : Bool
  operand : Option (Nested CharSet × SetOperator)
  gathered : List (Nested CharSet)

namespace Bracket

/-- Adds an item to what was gathered. -/
def add (b : Bracket) (s : Nested CharSet) : Bracket := { b with gathered := s :: b.gathered }

/-- Adds a single character to what was gathered. -/
def addChar (b : Bracket) (c : Char) : Bracket := b.add (Nested.flat (CharSet.single c))

/-- The union of what was gathered. -/
def union (b : Bracket) : Nested CharSet := Nested.beside CharSet.unions b.gathered

/-- The value of everything read so far. -/
def value (b : Bracket) : Nested CharSet :=
  match b.operand with
  | none => b.union
  | some (a, op) => (Nested.join (SetOperator.apply op) a b.union).deeper

/-- Goes on behind an operator. -/
def operate (b : Bracket) (op : SetOperator) : Bracket :=
  { b with operand := some (b.value, op), gathered := [] }

/-- The set of a closed bracket. -/
def close (b : Bracket) : Nested CharSet := (b.value.map (CharSet.bracketed b.negated)).deeper

/-- Takes the hyphens that stand first; they mean themselves. -/
def openHyphens : Bracket → List Char → Bracket × List Char
  | b, '-' :: rest => openHyphens (b.addChar '-') rest
  | b, rest => (b, rest)

/-- Reads the front of a bracket behind its `[`: the sign of negation, and then the hyphens or the
closing bracket that stand first and mean themselves. -/
def start (cs : List Char) : Bracket × List Char :=
  let (negated, cs) := match cs with
    | '^' :: rest => (true, rest)
    | rest => (false, rest)
  let empty : Bracket := ⟨negated, none, []⟩
  match cs with
  | ']' :: rest => (empty.addChar ']', rest)
  | rest => openHyphens empty rest

end Bracket

/-- Reads the name of an ASCII class behind `[:`.  A class is closed under case before it is
complemented. -/
def asciiClass? (cs : List Char) : Option (CharSet × List Char) :=
  let (negated, cs) := match cs with
    | '^' :: rest => (true, rest)
    | rest => (false, rest)
  match cs.dropWhile (· != ':') with
  | ':' :: ']' :: rest =>
    (CharSet.named? (String.ofList (cs.takeWhile (· != ':')))).map fun s =>
      (if negated then .outside (.spellings s) else s, rest)
  | _ => none

/-- Reads one end of a range, or a set that an escape stands for. -/
def bracketItem? : List Char → Option (Escape × List Char)
  | [] => none
  | '\\' :: rest =>
    match escape? rest with
    | some (.assertion _, _) => none
    | other => other
  | c :: rest => some (.literal c, rest)

/-- Whether the text goes on with the hyphen of a range. -/
def continuesRange : List Char → Bool
  | '-' :: ']' :: _ => false
  | '-' :: '-' :: _ => false
  | '-' :: _ => true
  | _ => false

/-- Reads a range, a single character or an escape between brackets. -/
def bracketRange? (cs : List Char) : Option (CharSet × List Char) :=
  match bracketItem? cs with
  | none => none
  | some (first, rest) =>
    if continuesRange rest then
      match first, bracketItem? (rest.drop 1) with
      | .literal a, some (.literal b, rest) =>
        if a.toNat ≤ b.toNat then some (.span a b, rest) else none
      | _, _ => none
    else
      match first with
      | .literal a => some (CharSet.single a, rest)
      | .set s => some (s, rest)
      | .assertion _ => none

/-- Reads a bracket up to its end.  Every step takes at least one character, so `steps` may be the
length of the text. -/
def bracket? : (steps : Nat) → Bracket → List Char → Option (Nested CharSet × List Char)
  | 0, _, _ => none
  | _ + 1, _, [] => none
  | _ + 1, b, ']' :: rest => some (b.close, rest)
  | steps + 1, b, '&' :: '&' :: rest => bracket? steps (b.operate .both) rest
  | steps + 1, b, '-' :: '-' :: rest => bracket? steps (b.operate .minus) rest
  | steps + 1, b, '~' :: '~' :: rest => bracket? steps (b.operate .apart) rest
  | steps + 1, b, '[' :: rest =>
    let named := match rest with
      | ':' :: text => asciiClass? text
      | _ => none
    match named with
    | some (s, rest) => bracket? steps (b.add (Nested.flat s)) rest
    | none =>
      let (inner, rest) := Bracket.start rest
      match bracket? steps inner rest with
      | some (s, rest) => bracket? steps (b.add s) rest
      | none => none
  | steps + 1, b, cs =>
    match bracketRange? cs with
    | some (s, rest) => bracket? steps (b.add (Nested.flat s)) rest
    | none => none

/-! ## 4. Tokens -/

/-- An atom without levels. -/
def Token.flatAtom (r : Re) : Token := .atom (Nested.flat r)

/-- A literal character, in any case. -/
def Token.char (c : Char) : Token := .flatAtom (Re.ofSet (.letter c))

/-- Reads a set in brackets behind its `[`. -/
def bracketed? (cs : List Char) : Option (Token × List Char) :=
  let (b, rest) := Bracket.start cs
  (bracket? (rest.length + 1) b rest).map fun (s, rest) => (.atom (s.map Re.ofSet), rest)

/-- Reads an escape as a token. -/
def escapeToken? (cs : List Char) : Option (Token × List Char) :=
  (escape? cs).map fun (e, rest) =>
    match e with
    | .literal c => (.char c, rest)
    | .set s => (.flatAtom (Re.ofSet s), rest)
    | .assertion a => (.flatAtom (.assertion a), rest)

/-- Whether a character may stand in the name of a group, in which the first one may not be any of
them. -/
def mayName (first : Bool) (c : Char) : Bool :=
  c == '_' || CharacterData.isAlphabetic c ||
    !first && (c == '.' || c == '[' || c == ']' || CharacterData.isNumeric c)

/-- Reads the name of a group behind its `<`. -/
def groupName? (cs : List Char) : Option (Opening × List Char) :=
  match cs.takeWhile (· != '>'), cs.dropWhile (· != '>') with
  | c :: more, _ :: rest =>
    if mayName true c && more.all (mayName false) then
      some (.named (String.ofList (c :: more)), rest)
    else none
  | _, _ => none

/-- Reads what a parenthesis opens behind it.  A question mark may only follow where the group has a
name, or neither a name nor a number. -/
def opening? : List Char → Option (Opening × List Char)
  | '?' :: ':' :: rest => some (.plain, rest)
  | '?' :: '<' :: rest => groupName? rest
  | '?' :: 'P' :: '<' :: rest => groupName? rest
  | '?' :: _ => none
  | rest => some (.numbered, rest)

/-- Reads the token that begins with a character. -/
def token? (c : Char) (rest : List Char) : Option (Token × List Char) :=
  match c with
  | '(' => (opening? rest).map fun (group, rest) => (.opening group, rest)
  | ')' => some (.closing, rest)
  | '|' => some (.bar, rest)
  | '?' => some (repetition 0 (some 1) rest)
  | '*' => some (repetition 0 none rest)
  | '+' => some (repetition 1 none rest)
  | '{' => (counts? rest).map fun (least, most, rest) => repetition least most rest
  | '[' => bracketed? rest
  | '\\' => escapeToken? rest
  | '.' => some (.flatAtom (Re.ofSet CharSet.dot), rest)
  | '^' => some (.flatAtom (.assertion .textStart), rest)
  | '$' => some (.flatAtom (.assertion .textEnd), rest)
  | c => some (.char c, rest)

/-- The tokens of a text.  Every step takes at least one character, so `steps` may be the length of
the text. -/
def tokensWithin : (steps : Nat) → List Char → Option (List Token)
  | _, [] => some []
  | 0, _ => none
  | steps + 1, c :: rest =>
    match token? c rest with
    | some (t, rest) => (tokensWithin steps rest).map (t :: ·)
    | none => none

/-- The tokens of a pattern. -/
def tokens (cs : List Char) : Option (List Token) := tokensWithin cs.length cs

end Shortlist.Pattern
