import Shortlist.Json.Basic
import Shortlist.Number.Decimal
import Shortlist.Number.Hexadecimal
import Shortlist.Text.Utf8

/-!
# Reading JSON

`value` reads one JSON value from the front of a text and returns what is left behind it.  A text
that is not JSON is refused with the first fault that a reader meets from the left; `Fault.message`
words them.  Nesting is limited to `maxDepth` levels.
-/

namespace Shortlist.Json

open Shortlist.Number

/-! ## 1. Faults -/

/-- Why a text is not JSON. -/
inductive Fault where
  | endInValue
  | endInList
  | endInObject
  | endInString
  | expectedListEnd
  | expectedObjectEnd
  | expectedColon
  | expectedValue
  | expectedWord
  | trailingComma
  | trailingCharacters
  | keyNotString
  | invalidNumber
  | numberOutOfRange
  | invalidEscape
  | loneSurrogate
  | endInSurrogate
  | controlCharacter
  | tooDeep
deriving Repr, DecidableEq

/-- The wording of a fault. -/
def Fault.message : Fault → String
  | .endInValue => "EOF while parsing a value"
  | .endInList => "EOF while parsing a list"
  | .endInObject => "EOF while parsing an object"
  | .endInString => "EOF while parsing a string"
  | .expectedListEnd => "expected `,` or `]`"
  | .expectedObjectEnd => "expected `,` or `\x7d`"
  | .expectedColon => "expected `:`"
  | .expectedValue => "expected value"
  | .expectedWord => "expected ident"
  | .trailingComma => "trailing comma"
  | .trailingCharacters => "trailing characters"
  | .keyNotString => "key must be a string"
  | .invalidNumber => "invalid number"
  | .numberOutOfRange => "number out of range"
  | .invalidEscape => "invalid escape"
  | .loneSurrogate => "lone leading surrogate in hex escape"
  | .endInSurrogate => "unexpected end of hex escape"
  | .controlCharacter => "control character (\\u0000-\\u001F) found while parsing a string"
  | .tooDeep => "recursion limit exceeded"

/-- What a reader returns: a value and the rest of the text, or a fault. -/
abbrev Reading (α : Type) := Except Fault (α × List Char)

namespace Reading

variable {α β : Type}

/-- Goes on with what was read and the rest of the text. -/
def andThen (r : Reading α) (next : α → List Char → Reading β) : Reading β :=
  match r with
  | .ok (a, rest) => next a rest
  | .error fault => .error fault

/-- Changes what was read. -/
def as (r : Reading α) (f : α → β) : Reading β := r.andThen fun a rest => .ok (f a, rest)

end Reading

/-! ## 2. Blanks and words -/

/-- The four characters that may stand between the tokens of a JSON text. -/
def isSpace (c : Char) : Bool := c == ' ' || c == '\t' || c == '\n' || c == '\r'

/-- The text behind the blanks in front of it. -/
def skipSpace (cs : List Char) : List Char := cs.dropWhile isSpace

/-- Reads the letters of a word one after another. -/
def word (result : Value) : List Char → List Char → Reading Value
  | [], rest => .ok (result, rest)
  | _ :: _, [] => .error .endInValue
  | w :: ws, c :: rest => if c == w then word result ws rest else .error .expectedWord

/-! ## 3. Numbers -/

/-- Whether a character is one of the ten ASCII digits. -/
def isDecimal (c : Char) : Bool := '0' ≤ c && c ≤ '9'

/-- The value of a decimal digit. -/
def digitValue (c : Char) : Nat := c.toNat - '0'.toNat

/-- Whether a text begins with a digit. -/
def startsWithDigit : List Char → Bool
  | c :: _ => isDecimal c
  | [] => false

/-- The largest significand that is kept exactly. -/
def maxSignificand : Nat := twoTo 64 - 1

/-- Appends digits to a significand for as long as it stays within 64 bits. -/
def absorb (significand : Nat) : List Char → Nat × List Char
  | [] => (significand, [])
  | c :: rest =>
    if isDecimal c && 10 * significand + digitValue c ≤ maxSignificand then
      absorb (10 * significand + digitValue c) rest
    else (significand, c :: rest)

/-- A power of ten as a double precision number. -/
def powerOfTen (n : Nat) : Binary64 := Binary64.ofDecimal false 1 n

/-- The magnitude `significand * 10 ^ exponent`: the significand is rounded first, then multiplied
or divided by the power of ten.  Below `10 ^ -308` it is divided in two steps, behind which nothing
is left of any significand. -/
def scale (significand : Nat) (exponent : Int) : Except Fault Binary64 :=
  let f := Binary64.ofNat significand
  if 0 ≤ exponent then
    if significand == 0 then .ok f
    else if 308 < exponent then .error .numberOutOfRange
    else match f.mul (powerOfTen exponent.toNat) with
      | .infinity _ => .error .numberOutOfRange
      | x => .ok x
  else if -308 ≤ exponent then .ok (f.div (powerOfTen (-exponent).toNat))
  else if -616 ≤ exponent then .ok ((f.div (powerOfTen 308)).div (powerOfTen (-exponent - 308).toNat))
  else .ok Binary64.zero

/-- A number with sign, significand and exponent. -/
def realOf (negative : Bool) (significand : Nat) (exponent : Int) (rest : List Char) :
    Reading Numeral :=
  match scale significand exponent with
  | .ok x => .ok (.real (if negative then x.neg else x), rest)
  | .error fault => .error fault

/-- The largest exponent that is read; one beyond it means infinity or zero. -/
def maxExponent : Nat := twoTo 31 - 1

/-- Reads the exponent behind its letter. -/
def exponentPart (negative : Bool) (significand : Nat) (scaleSoFar : Int) (cs : List Char) :
    Reading Numeral :=
  let (down, digits) := match cs with
    | '+' :: rest => (false, rest)
    | '-' :: rest => (true, rest)
    | rest => (false, rest)
  match digits with
  | [] => .error .endInValue
  | c :: _ =>
    if !isDecimal c then .error .invalidNumber
    else
      let written := natOfDigits (digits.takeWhile isDecimal)
      let rest := digits.dropWhile isDecimal
      if maxExponent < written then
        if significand != 0 && !down then .error .numberOutOfRange
        else .ok (.real (.finite negative 0), rest)
      else
        realOf negative significand (if down then scaleSoFar - written else scaleSoFar + written) rest

/-- Reads what may follow the digits of a number: an exponent, or nothing. -/
def afterDigits (negative : Bool) (significand : Nat) (exponent : Int) : List Char → Reading Numeral
  | 'e' :: rest => exponentPart negative significand exponent rest
  | 'E' :: rest => exponentPart negative significand exponent rest
  | rest => realOf negative significand exponent rest

/-- Reads the digits behind the point.  Those that no longer fit into the significand are
dropped. -/
def fractionPart (negative : Bool) (significand : Nat) (exponent : Int) (cs : List Char) :
    Reading Numeral :=
  let (more, rest) := absorb significand cs
  let places := cs.length - rest.length
  if startsWithDigit rest then
    afterDigits negative more (exponent - places) (rest.dropWhile isDecimal)
  else if places == 0 then .error (if rest.isEmpty then .endInValue else .invalidNumber)
  else afterDigits negative more (exponent - places) rest

/-- The number of a sign and a significand of at most 64 bits.  What does not fit into a signed
integer is a double precision number, and so is a negative zero. -/
def numeralOf (negative : Bool) (significand : Nat) : Numeral :=
  if !negative then .integer significand
  else if significand == 0 || twoTo 63 < significand then .real (Binary64.ofNat significand).neg
  else .integer (-(significand : Int))

/-- Reads what may follow the integer part of a number. -/
def afterInteger (negative : Bool) (significand : Nat) : List Char → Reading Numeral
  | '.' :: rest => fractionPart negative significand 0 rest
  | 'e' :: rest => exponentPart negative significand 0 rest
  | 'E' :: rest => exponentPart negative significand 0 rest
  | rest => .ok (numeralOf negative significand, rest)

/-- Reads what follows an integer part of more than 64 bits, of which `extra` digits were
dropped. -/
def afterLongInteger (negative : Bool) (significand extra : Nat) : List Char → Reading Numeral
  | '.' :: rest => fractionPart negative significand extra rest
  | rest => afterDigits negative significand extra rest

/-- Reads a number behind its sign. -/
def numeral (negative : Bool) : List Char → Reading Numeral
  | [] => .error .endInValue
  | '0' :: rest =>
    if startsWithDigit rest then .error .invalidNumber else afterInteger negative 0 rest
  | c :: rest =>
    if !isDecimal c then .error .invalidNumber
    else
      let (significand, behind) := absorb (digitValue c) rest
      if startsWithDigit behind then
        afterLongInteger negative significand (behind.takeWhile isDecimal).length
          (behind.dropWhile isDecimal)
      else afterInteger negative significand behind

/-! ## 4. Strings -/

/-- Reads the four digits of a `\u` escape.  A text of fewer than four bytes ends too early. -/
def hexUnit (cs : List Char) : Reading Nat :=
  if Text.Utf8.byteCount (cs.take 4) < 4 then .error .endInString
  else if cs.length < 4 then .error .invalidEscape
  else match Number.hexNumber? (cs.take 4) with
    | some n => .ok (n, cs.drop 4)
    | none => .error .invalidEscape

/-- Reads the second half of a pair of surrogates. -/
def trailingSurrogate (leading : Nat) : List Char → Reading Char
  | [] => .error .endInString
  | '\\' :: [] => .error .endInString
  | '\\' :: 'u' :: rest =>
    Reading.andThen (hexUnit rest) fun n rest =>
      if n < 0xDC00 || 0xDFFF < n then .error .loneSurrogate
      else .ok (Char.ofNat (0x10000 + (leading - 0xD800) * 0x400 + (n - 0xDC00)), rest)
  | _ => .error .endInSurrogate

/-- Reads the character of a `\u` escape. -/
def unicodeEscape (cs : List Char) : Reading Char :=
  Reading.andThen (hexUnit cs) fun n rest =>
    if 0xDC00 ≤ n && n ≤ 0xDFFF then .error .loneSurrogate
    else if 0xD800 ≤ n && n ≤ 0xDBFF then trailingSurrogate n rest
    else .ok (Char.ofNat n, rest)

/-- Reads an escape behind its backslash. -/
def escape : List Char → Reading Char
  | [] => .error .endInString
  | '"' :: rest => .ok ('"', rest)
  | '\\' :: rest => .ok ('\\', rest)
  | '/' :: rest => .ok ('/', rest)
  | 'b' :: rest => .ok ('\x08', rest)
  | 'f' :: rest => .ok ('\x0c', rest)
  | 'n' :: rest => .ok ('\n', rest)
  | 'r' :: rest => .ok ('\r', rest)
  | 't' :: rest => .ok ('\t', rest)
  | 'u' :: rest => unicodeEscape rest
  | _ => .error .invalidEscape

/-- Reads the characters of a string up to its closing quote; those read are kept in reverse.  Every
step takes at least one character, so `steps` may be the length of the text. -/
def stringBody (read : List Char) : (steps : Nat) → List Char → Reading String
  | 0, _ => .error .endInString
  | _ + 1, [] => .error .endInString
  | steps + 1, c :: rest =>
    if c == '"' then .ok (String.ofList read.reverse, rest)
    else if c == '\\' then
      match escape rest with
      | .ok (d, rest) => stringBody (d :: read) steps rest
      | .error fault => .error fault
    else if c.toNat < 0x20 then .error .controlCharacter
    else stringBody (c :: read) steps rest

/-- Reads a string behind its opening quote. -/
def string (cs : List Char) : Reading String := stringBody [] cs.length cs

/-! ## 5. Values -/

/-- Reads the items of an array and its closing bracket, given a reader for one item.  `first`
tells whether no item was read yet. -/
def items (item : List Char → Reading Value) (first : Bool) :
    (steps : Nat) → List Char → Reading (List Value)
  | 0, _ => .error .endInList
  | steps + 1, cs =>
    let next := fun (text : List Char) =>
      Reading.andThen (item text) fun v rest =>
        Reading.as (items item false steps rest) (v :: ·)
    match skipSpace cs with
    | [] => .error .endInList
    | ']' :: rest => .ok ([], rest)
    | c :: rest =>
      if first then next (c :: rest)
      else if c == ',' then
        match skipSpace rest with
        | [] => .error .endInValue
        | ']' :: _ => .error .trailingComma
        | text => next text
      else .error .expectedListEnd

/-- Reads the members of an object and its closing brace, given a reader for one value; the ones
read so far come with it. -/
def members (item : List Char → Reading Value) (first : Bool) :
    (steps : Nat) → Keyed Value → List Char → Reading (Keyed Value)
  | 0, _, _ => .error .endInObject
  | steps + 1, read, cs =>
    let next := fun (text : List Char) =>
      Reading.andThen (string text) fun key rest =>
        match skipSpace rest with
        | [] => .error .endInObject
        | ':' :: rest =>
          Reading.andThen (item rest) fun v rest =>
            members item false steps (Keyed.insert key v read) rest
        | _ => .error .expectedColon
    match skipSpace cs with
    | [] => .error .endInObject
    | '}' :: rest => .ok (read, rest)
    | c :: rest =>
      if first then if c == '"' then next rest else .error .keyNotString
      else if c == ',' then
        match skipSpace rest with
        | [] => .error .endInValue
        | '"' :: text => next text
        | '}' :: _ => .error .trailingComma
        | _ => .error .keyNotString
      else .error .expectedObjectEnd

/-- How many levels of arrays and objects may be nested. -/
def maxDepth : Nat := 127

/-- Reads a value that may contain `depth` further levels of arrays and objects. -/
def valueWithin : (depth : Nat) → List Char → Reading Value
  | depth, cs =>
    match skipSpace cs with
    | [] => .error .endInValue
    | c :: rest =>
      if c == 'n' then word .null ['u', 'l', 'l'] rest
      else if c == 't' then word (.bool true) ['r', 'u', 'e'] rest
      else if c == 'f' then word (.bool false) ['a', 'l', 's', 'e'] rest
      else if c == '"' then Reading.as (string rest) .string
      else if c == '-' then Reading.as (numeral true rest) .number
      else if isDecimal c then Reading.as (numeral false (c :: rest)) .number
      else if c == '[' then
        match depth with
        | 0 => .error .tooDeep
        | depth + 1 =>
          Reading.as (items (valueWithin depth) true (rest.length + 1) rest) .array
      else if c == '{' then
        match depth with
        | 0 => .error .tooDeep
        | depth + 1 =>
          Reading.as (members (valueWithin depth) true (rest.length + 1) [] rest) .object
      else .error .expectedValue

/-- Reads one value. -/
def value (cs : List Char) : Reading Value := valueWithin maxDepth cs

/-- The single value that a text holds. -/
def ofText (cs : List Char) : Except Fault Value := do
  let (v, rest) ← value cs
  if (skipSpace rest).isEmpty then return v else .error .trailingCharacters

end Shortlist.Json
