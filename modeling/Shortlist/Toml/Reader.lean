import Shortlist.Json.Reader
import Shortlist.Number.Written
import Shortlist.Text.Search
import Shortlist.Toml.Moment
import Shortlist.Toml.Table

/-!
# Reading TOML

Every reader takes what it reads from the front of a text and returns it with the rest, or nothing
if the text does not begin as it should.
-/

namespace Shortlist.Toml

open Json (Value)
open Number (Binary64)

/-- What a reader returns: a value and the rest of the text. -/
abbrev Reading (α : Type) := Option (α × List Char)

/-! ## 1. Blanks, comments and line ends -/

/-- The two characters that may stand between the tokens of a line. -/
def isSpace (c : Char) : Bool := c == ' ' || c == '\t'

/-- The text behind the blanks in front of it. -/
def skipSpace (cs : List Char) : List Char := cs.dropWhile isSpace

/-- Whether a character may stand in a comment or a string as it is. -/
def isPlain (c : Char) : Bool := c == '\t' || (0x20 ≤ c.toNat && c.toNat != 0x7F)

/-- The text behind a comment, if one stands in front. -/
def skipComment : List Char → List Char
  | '#' :: rest => rest.dropWhile isPlain
  | rest => rest

/-- The text behind the line end in front of it. -/
def newline? : List Char → Option (List Char)
  | '\n' :: rest => some rest
  | '\r' :: '\n' :: rest => some rest
  | _ => none

/-- The text behind the rest of a line, which may hold nothing but blanks and a comment. -/
def lineEnd? (cs : List Char) : Option (List Char) :=
  match skipComment (skipSpace cs) with
  | [] => some []
  | rest => newline? rest

/-- The text behind blanks, comments and line ends.  Every step passes at least one line end, so
`steps` may be the length of the text. -/
def skipLines : (steps : Nat) → List Char → List Char
  | 0, cs => cs
  | steps + 1, cs =>
    let rest := skipComment (skipSpace cs)
    match newline? rest with
    | some rest => skipLines steps rest
    | none => rest

/-! ## 2. Strings -/

/-- The character that digits of base sixteen stand for, of which there have to be `count`. -/
def codePoint (count : Nat) (cs : List Char) : Reading Char :=
  if cs.length < count then none else (Number.hexChar? (cs.take count)).map (·, cs.drop count)

/-- Reads an escape behind its backslash. -/
def escape : List Char → Reading Char
  | '"' :: rest => some ('"', rest)
  | '\\' :: rest => some ('\\', rest)
  | 'b' :: rest => some ('\x08', rest)
  | 'e' :: rest => some ('\x1b', rest)
  | 'f' :: rest => some ('\x0c', rest)
  | 'n' :: rest => some ('\n', rest)
  | 'r' :: rest => some ('\r', rest)
  | 't' :: rest => some ('\t', rest)
  | 'x' :: rest => codePoint 2 rest
  | 'u' :: rest => codePoint 4 rest
  | 'U' :: rest => codePoint 8 rest
  | _ => none

/-- Reads a string on one line up to the quote that closes it; the characters read so far are in
`read`, last one first.  Escapes count only between double quotes. -/
def lineString (quote : Char) (read : List Char) : (steps : Nat) → List Char → Reading String
  | 0, _ => none
  | _ + 1, [] => none
  | steps + 1, c :: rest =>
    if c == quote then some (String.ofList read.reverse, rest)
    else if c == '\\' && quote == '"' then
      (escape rest).bind fun (d, rest) => lineString quote (d :: read) steps rest
    else if isPlain c then lineString quote (c :: read) steps rest
    else none

/-- Reads a string of several lines up to the three quotes that close it.  One or two more quotes
in front of these belong to it.  Between double quotes, a backslash at the end of a line joins what
follows on later lines. -/
def blockString (quote : Char) (read : List Char) : (steps : Nat) → List Char → Reading String
  | 0, _ => none
  | _ + 1, [] => none
  | steps + 1, c :: rest =>
    let quotes := ((c :: rest).takeWhile (· == quote)).length
    if 3 ≤ quotes then
      let kept := min quotes 5 - 3
      some (String.ofList (read.reverse ++ List.replicate kept quote),
        (c :: rest).drop (kept + 3))
    else if c == '\\' && quote == '"' then
      match newline? (skipSpace rest) with
      | some rest => blockString quote read steps (rest.dropWhile (Json.isSpace ·))
      | none => (escape rest).bind fun (d, rest) => blockString quote (d :: read) steps rest
    else match newline? (c :: rest) with
      | some rest => blockString quote ('\n' :: read) steps rest
      | none => if isPlain c then blockString quote (c :: read) steps rest else none

/-- Reads a string behind its first quote. -/
def string (quote : Char) (cs : List Char) : Reading String :=
  if [quote, quote].isPrefixOf cs then
    let body := cs.drop 2
    blockString quote [] (body.length + 1) ((newline? body).getD body)
  else lineString quote [] (cs.length + 1) cs

/-! ## 3. Keys -/

/-- Whether a character may stand in a key without quotes. -/
def isBare (c : Char) : Bool := c.isAlphanum || c == '_' || c == '-'

/-- Reads one part of a key. -/
def keyPart (cs : List Char) : Reading String :=
  match cs with
  | '"' :: rest => lineString '"' [] (rest.length + 1) rest
  | '\'' :: rest => lineString '\'' [] (rest.length + 1) rest
  | _ =>
    let bare := cs.takeWhile isBare
    if bare.isEmpty then none else some (String.ofList bare, cs.dropWhile isBare)

/-- Reads a key: parts with points between them.  Every step takes at least one character, so
`steps` may be the length of the text. -/
def keyWithin : (steps : Nat) → List Char → Reading (List String)
  | 0, _ => none
  | steps + 1, cs =>
    (keyPart (skipSpace cs)).bind fun (part, rest) =>
      match skipSpace rest with
      | '.' :: rest => (keyWithin steps rest).map fun (parts, rest) => (part :: parts, rest)
      | rest => some ([part], rest)

/-- Reads a key and the blanks behind it. -/
def key (cs : List Char) : Reading (List String) := keyWithin (cs.length + 1) cs

/-! ## 4. Numbers and words -/

/-- The digits of a number, where single underscores may stand between digits. -/
def digitRun? (isDigit : Char → Bool) (cs : List Char) : Option (List Char) :=
  let groups := Text.splitAt '_' cs
  if groups.all fun group => !group.isEmpty && group.all isDigit then some groups.flatten else none

/-- The digits of the whole part of a decimal number, which does not begin with a needless 0. -/
def wholeDigits? (cs : List Char) : Option (List Char) :=
  (digitRun? Char.isDigit cs).bind fun digits =>
    if digits.head? == some '0' && digits.length != 1 then none else some digits

/-- Digits without a sign in base sixteen, eight or two, behind the two characters that say which
base it is. -/
def basedInteger? : List Char → Option Nat
  | '0' :: letter :: cs =>
    let base := if letter == 'x' then 16 else if letter == 'o' then 8 else 2
    let isDigit := fun c => (Number.hexValue? c).any (· < base)
    if ['x', 'o', 'b'].contains letter then
      (digitRun? isDigit cs).map fun digits =>
        digits.foldl (fun n c => base * n + (Number.hexValue? c).getD 0) 0
    else none
  | _ => none

/-- The sign of a number and what stands behind it. -/
def signed : List Char → Bool × List Char
  | '-' :: rest => (true, rest)
  | '+' :: rest => (false, rest)
  | rest => (false, rest)

/-- An integer of 64 bits. -/
def integer? (cs : List Char) : Option Int :=
  match basedInteger? cs with
  | some n => if n < Number.twoTo 63 then some n else none
  | none =>
    let (negative, unsigned) := signed cs
    (wholeDigits? unsigned).bind fun digits =>
      Number.integer? (if negative then '-' :: digits else digits)

/-- The exponent of a number, behind its letter. -/
def exponent? (cs : List Char) : Option (List Char) :=
  let (negative, unsigned) := signed cs
  (digitRun? Char.isDigit unsigned).map fun digits =>
    'e' :: (if negative then '-' :: digits else digits)

/-- A number with a point or an exponent as plain digits, without underscores. -/
def realDigits? (cs : List Char) : Option (List Char) :=
  let isMark := fun c => c == '.' || c == 'e' || c == 'E'
  let isLetter := fun c => c == 'e' || c == 'E'
  (wholeDigits? (cs.takeWhile (!isMark ·))).bind fun whole =>
    match cs.dropWhile (!isMark ·) with
    | '.' :: rest =>
      (digitRun? Char.isDigit (rest.takeWhile (!isLetter ·))).bind fun fraction =>
        match rest.dropWhile (!isLetter ·) with
        | [] => some (whole ++ '.' :: fraction)
        | _ :: rest => (exponent? rest).map fun e => whole ++ '.' :: fraction ++ e
    | _ :: rest => (exponent? rest).map fun e => whole ++ e
    | [] => none

/-- A real number.  One that is too large is refused. -/
def real? (cs : List Char) : Option Binary64 :=
  let (negative, unsigned) := signed cs
  if unsigned == ['i', 'n', 'f'] then some (.infinity negative)
  else if unsigned == ['n', 'a', 'n'] then some .nan
  else (realDigits? unsigned).bind fun digits =>
    (Number.plainReal? negative digits).filter Binary64.isFinite

/-- Whether a character belongs to a number, a date or a word. -/
def isWordly (c : Char) : Bool := isBare c || c == '.' || c == '+' || c == ':'

/-- The value that a number, a date or a word stands for. -/
def word? (cs : List Char) : Option Value :=
  if cs == ['t', 'r', 'u', 'e'] then some (.bool true)
  else if cs == ['f', 'a', 'l', 's', 'e'] then some (.bool false)
  else match integer? cs with
    | some n => some (.number (.integer n))
    | none =>
      match real? cs with
      | some x => some (.number (.real x))
      | none => (Moment.text? cs).map .string

/-- Reads a number, a date or a word.  A blank may stand between a date and a time. -/
def atom (cs : List Char) : Reading Value :=
  let first := cs.takeWhile isWordly
  let rest := cs.dropWhile isWordly
  match (Moment.date? first).any (·.2.isEmpty), rest with
  | true, ' ' :: c :: more =>
    if c.isDigit then
      let both := first ++ ' ' :: (c :: more).takeWhile isWordly
      (Moment.text? both).map fun text => (.string text, (c :: more).dropWhile isWordly)
    else (word? first).map (·, rest)
  | _, _ => (word? first).map (·, rest)

/-! ## 5. Values -/

/-- Reads the items of a list and its closing bracket, given a reader for one item. -/
def items (item : List Char → Reading Value) : (steps : Nat) → List Char → Reading (List Value)
  | 0, _ => none
  | steps + 1, cs =>
    match skipLines cs.length cs with
    | ']' :: rest => some ([], rest)
    | text =>
      (item text).bind fun (v, rest) =>
        match skipLines rest.length rest with
        | ',' :: rest => (items item steps rest).map fun (vs, rest) => (v :: vs, rest)
        | ']' :: rest => some ([v], rest)
        | _ => none

/-- Reads a key, the sign of equality and a value, given a reader for the value. -/
def pair (item : List Char → Reading Value) (cs : List Char) : Reading (List String × Value) :=
  (key cs).bind fun (path, rest) =>
    match rest with
    | '=' :: rest => (item (skipSpace rest)).map fun (v, rest) => ((path, v), rest)
    | _ => none

/-- Reads the pairs of a table in braces and its closing brace.  A comma may follow the last pair,
and the pairs may stand on several lines. -/
def pairs (item : List Char → Reading Value) :
    (steps : Nat) → List Char → Reading (List (List String × Value))
  | 0, _ => none
  | steps + 1, cs =>
    match skipLines cs.length cs with
    | '}' :: rest => some ([], rest)
    | text =>
      (pair item text).bind fun (first, rest) =>
        match skipLines rest.length rest with
        | ',' :: rest => (pairs item steps rest).map fun (more, rest) => (first :: more, rest)
        | '}' :: rest => some ([first], rest)
        | _ => none

/-- Reads a table in braces behind its opening brace, given a reader for a value. -/
def inlineTable (item : List Char → Reading Value) (cs : List Char) : Reading Value :=
  (pairs item (cs.length + 1) cs).bind fun (all, rest) => (ofPairs all).map fun v => (v, rest)

/-- How many levels of lists and tables a value may have. -/
def maxDepth : Nat := 80

/-- Reads a value that may contain `depth` levels of lists and tables. -/
def valueWithin : (depth : Nat) → List Char → Reading Value
  | _, [] => none
  | depth, c :: rest =>
    if c == '"' || c == '\'' then (string c rest).map fun (s, rest) => (.string s, rest)
    else if c == '[' then
      match depth with
      | 0 => none
      | depth + 1 =>
        (items (valueWithin depth) (rest.length + 1) rest).map fun (vs, rest) => (.array vs, rest)
    else if c == '{' then
      match depth with
      | 0 => none
      | depth + 1 => inlineTable (valueWithin depth) rest
    else atom (c :: rest)

/-- Reads a value. -/
def value (cs : List Char) : Reading Value := valueWithin maxDepth cs

/-! ## 6. Documents -/

/-- Reads a statement. -/
def statement (cs : List Char) : Reading Statement :=
  match cs with
  | '[' :: '[' :: rest =>
    (key rest).bind fun (path, rest) =>
      match rest with
      | ']' :: ']' :: rest => some (.item path, rest)
      | _ => none
  | '[' :: rest =>
    (key rest).bind fun (path, rest) =>
      match rest with
      | ']' :: rest => some (.table path, rest)
      | _ => none
  | rest => (pair value rest).map fun ((path, v), rest) => (.pair path v, rest)

/-- Reads statements, one a line.  Every step passes at least one character, so `steps` may be the
length of the text. -/
def statements : (steps : Nat) → List Char → Option (List Statement)
  | 0, cs => if cs.isEmpty then some [] else none
  | steps + 1, cs =>
    match skipLines cs.length cs with
    | [] => some []
    | text =>
      (statement text).bind fun (first, rest) =>
        (lineEnd? rest).bind fun rest => (statements steps rest).map (first :: ·)

/-- The members of the document that a text holds. -/
def ofText (cs : List Char) : Option (Keyed Value) :=
  (statements (cs.length + 1) cs).bind ofStatements

end Shortlist.Toml
