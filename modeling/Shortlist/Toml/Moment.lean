import Shortlist.Number.Decimal

/-!
# Dates and times in TOML

A date, a time of day, or both with or without a distance from universal time.  A moment is read
only to be written again: its value is its text in the usual form, with a `T` between date and time and
without needless zeros at the end of a fraction.
-/

namespace Shortlist.Toml.Moment

/-! ## 1. Numbers -/

/-- Reads a number of exactly `count` digits that lies between two bounds. -/
def number? (count least most : Nat) (cs : List Char) : Option (Nat × List Char) :=
  let digits := cs.take count
  let n := Number.natOfDigits digits
  if digits.length == count && digits.all Char.isDigit && least ≤ n && n ≤ most then
    some (n, cs.drop count)
  else none

/-- A number with zeros in front of it. -/
def padded (width n : Nat) : List Char :=
  let digits := Number.decimalDigits n
  List.replicate (width - digits.length) '0' ++ digits

/-- Reads a given character. -/
def mark? (mark : Char) : List Char → Option (List Char)
  | [] => none
  | c :: rest => if c == mark then some rest else none

/-! ## 2. Dates -/

/-- Whether a year has a leap day. -/
def isLeap (year : Nat) : Bool := year % 4 == 0 && (year % 100 != 0 || year % 400 == 0)

/-- The number of days of a month. -/
def daysIn (year month : Nat) : Nat :=
  if month == 2 then if isLeap year then 29 else 28
  else if [4, 6, 9, 11].contains month then 30
  else 31

/-- Reads a date: its text, and what stands behind it. -/
def date? (cs : List Char) : Option (List Char × List Char) :=
  (number? 4 0 9999 cs).bind fun (year, rest) =>
    ((mark? '-' rest).bind (number? 2 1 12)).bind fun (month, rest) =>
      ((mark? '-' rest).bind (number? 2 1 (daysIn year month))).map fun (day, rest) =>
        (padded 4 year ++ '-' :: padded 2 month ++ '-' :: padded 2 day, rest)

/-! ## 3. Times -/

/-- The text of a fraction of a second, which has at most nine digits. -/
def fractionText (digits : List Char) : List Char :=
  match ((digits.take 9).reverse.dropWhile (· == '0')).reverse with
  | [] => ['.', '0']
  | kept => '.' :: kept

/-- Reads the fraction of a second, if there is one. -/
def fraction? : List Char → Option (List Char × List Char)
  | '.' :: rest =>
    let digits := rest.takeWhile Char.isDigit
    if digits.isEmpty then none else some (fractionText digits, rest.dropWhile Char.isDigit)
  | rest => some ([], rest)

/-- Reads the seconds, if there are some. -/
def seconds? : List Char → Option (List Char × List Char)
  | ':' :: rest =>
    (number? 2 0 60 rest).bind fun (second, rest) =>
      (fraction? rest).map fun (fraction, rest) => (':' :: padded 2 second ++ fraction, rest)
  | rest => some ([], rest)

/-- Reads hours and minutes. -/
def clock? (cs : List Char) : Option (List Char × List Char) :=
  (number? 2 0 23 cs).bind fun (hour, rest) =>
    ((mark? ':' rest).bind (number? 2 0 59)).map fun (minute, rest) =>
      (padded 2 hour ++ ':' :: padded 2 minute, rest)

/-- Reads a time of day. -/
def time? (cs : List Char) : Option (List Char × List Char) :=
  (clock? cs).bind fun (clock, rest) =>
    (seconds? rest).map fun (seconds, rest) => (clock ++ seconds, rest)

/-- The text of a distance from universal time, which is everything that is left. -/
def distance? : List Char → Option (List Char)
  | [] => some []
  | ['Z'] => some ['Z']
  | ['z'] => some ['Z']
  | sign :: rest =>
    if sign == '+' || sign == '-' then
      (clock? rest).bind fun (clock, rest) =>
        if rest.isEmpty then
          some ((if clock == "00:00".toList then '+' else sign) :: clock)
        else none
    else none

/-! ## 4. Moments -/

/-- The text of a date that may be followed by a time and its distance from universal time. -/
def dated? (cs : List Char) : Option (List Char) :=
  (date? cs).bind fun (date, rest) =>
    match rest with
    | [] => some date
    | mark :: rest =>
      if ['T', 't', ' '].contains mark then
        (time? rest).bind fun (time, rest) =>
          (distance? rest).map fun distance => date ++ 'T' :: time ++ distance
      else none

/-- The text of a time of day. -/
def timeOfDay? (cs : List Char) : Option (List Char) :=
  (time? cs).bind fun (time, rest) => if rest.isEmpty then some time else none

/-- The text of a moment. -/
def text? (cs : List Char) : Option String :=
  match dated? cs with
  | some text => some (String.ofList text)
  | none => (timeOfDay? cs).map String.ofList

end Shortlist.Toml.Moment
