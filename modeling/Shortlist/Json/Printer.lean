import Shortlist.Json.Basic
import Shortlist.Number.Decimal

/-!
# Writing JSON

The compact text of a value: no blanks, the shortest form of every number, and in strings only
those characters escaped that have to be.
-/

namespace Shortlist.Json

open Shortlist.Number

/-! ## 1. Numbers and strings -/

/-- Numbers are written without an exponent from `0.00001` up to fifteen zeros behind the first
digit, and always show that they are not integers. -/
def realLayout : Layout := ⟨-5, 15, true, .toEven⟩

/-- The text of a number. -/
def numeralText : Numeral → List Char
  | .integer n => (if n < 0 then ['-'] else []) ++ decimalDigits n.natAbs
  | .real x => x.text realLayout

/-- A hexadecimal digit in lower case. -/
def hexDigit (n : Nat) : Char :=
  if n < 10 then Char.ofNat ('0'.toNat + n) else Char.ofNat ('a'.toNat + (n - 10))

/-- A character as it stands in a string. -/
def escaped (c : Char) : List Char :=
  if c == '"' then ['\\', '"']
  else if c == '\\' then ['\\', '\\']
  else if c == '\x08' then ['\\', 'b']
  else if c == '\x0c' then ['\\', 'f']
  else if c == '\n' then ['\\', 'n']
  else if c == '\r' then ['\\', 'r']
  else if c == '\t' then ['\\', 't']
  else if c.toNat < 0x20 then
    ['\\', 'u', '0', '0', hexDigit (c.toNat / 16), hexDigit (c.toNat % 16)]
  else [c]

/-- The text of a string with its quotes. -/
def stringText (s : String) : List Char := '"' :: s.toList.flatMap escaped ++ ['"']

/-! ## 2. Values -/

mutual

/-- The text of a value. -/
def valueText : Value → List Char
  | .null => ['n', 'u', 'l', 'l']
  | .bool true => ['t', 'r', 'u', 'e']
  | .bool false => ['f', 'a', 'l', 's', 'e']
  | .number n => numeralText n
  | .string s => stringText s
  | .array [] => ['[', ']']
  | .array (v :: vs) => '[' :: valueText v ++ itemsText vs
  | .object [] => ['{', '}']
  | .object ((k, v) :: ms) => '{' :: stringText k ++ ':' :: valueText v ++ membersText ms

/-- The text of the items behind the first one, and the closing bracket. -/
def itemsText : List Value → List Char
  | [] => [']']
  | v :: vs => ',' :: valueText v ++ itemsText vs

/-- The text of the members behind the first one, and the closing brace. -/
def membersText : List (String × Value) → List Char
  | [] => ['}']
  | (k, v) :: ms => ',' :: stringText k ++ ':' :: valueText v ++ membersText ms

end

/-- The compact text of a value. -/
def Value.text (v : Value) : String := String.ofList (valueText v)

end Shortlist.Json
