import Shortlist.Number.Decimal

/-!
# Numbers that people write

The texts that stand for numbers in lists and settings: natural numbers and integers are a run of
digits, real numbers may have a point and an exponent.  Nothing may stand around a number, no blank
either.
-/

namespace Shortlist.Number

/-! ## 1. Whole numbers -/

/-- The value of a text of decimal digits, of which there is at least one. -/
def digits? (cs : List Char) : Option Nat :=
  if !cs.isEmpty && cs.all Char.isDigit then some (natOfDigits cs) else none

/-- A natural number of at most `limit`, with a plus sign in front or not. -/
def natural? (limit : Nat) (cs : List Char) : Option Nat :=
  let unsigned := match cs with
    | '+' :: rest => rest
    | rest => rest
  (digits? unsigned).bind fun n => if n ≤ limit then some n else none

/-- An integer of 64 bits, with a sign in front or not. -/
def integer? (cs : List Char) : Option Int :=
  match cs with
  | '-' :: rest => (digits? rest).bind fun n => if n ≤ twoTo 63 then some (-(n : Int)) else none
  | rest => (natural? (twoTo 63 - 1) rest).map Int.ofNat

/-! ## 2. Real numbers -/

/-- The exponent behind its letter; no text at all means 0. -/
def exponent? (cs : List Char) : Option Int :=
  match cs with
  | [] => some 0
  | letter :: rest =>
    if letter != 'e' && letter != 'E' then none
    else match rest with
      | '-' :: more => (digits? more).map fun n => -(n : Int)
      | '+' :: more => (digits? more).map Int.ofNat
      | more => (digits? more).map Int.ofNat

/-- The number that digits with a point and an exponent stand for.  There has to be a digit on one
side of the point. -/
def plainReal? (negative : Bool) (cs : List Char) : Option Binary64 :=
  let whole := cs.takeWhile Char.isDigit
  let (fraction, rest) := match cs.dropWhile Char.isDigit with
    | '.' :: more => (more.takeWhile Char.isDigit, more.dropWhile Char.isDigit)
    | rest => ([], rest)
  if whole.isEmpty && fraction.isEmpty then none
  else (exponent? rest).map fun e =>
    Binary64.ofDecimal negative (natOfDigits (whole ++ fraction)) (e - fraction.length)

/-- The number that a text without a sign stands for: digits, or one of the words for infinity and
for what is not a number, in any case. -/
def unsignedReal? (negative : Bool) (cs : List Char) : Option Binary64 :=
  let word := String.ofList (cs.map Char.toLower)
  if word == "inf" || word == "infinity" then some (.infinity negative)
  else if word == "nan" then some .nan
  else plainReal? negative cs

/-- A real number, with a sign in front or not. -/
def real? (cs : List Char) : Option Binary64 :=
  match cs with
  | '-' :: rest => unsignedReal? true rest
  | '+' :: rest => unsignedReal? false rest
  | rest => unsignedReal? false rest

end Shortlist.Number
