import Shortlist.Number.Binary64

/-!
# Decimal text of numbers

Reading takes a decimal `digits * 10 ^ exponent` to the nearest double precision number.  Writing
takes a number to the shortest decimal that reads back as the same number, and of several equally
short ones to the nearest.  Which of two equally near ones is taken, and how the digits are laid
out, is one `Layout` value for each kind of text.
-/

namespace Shortlist.Number

/-! ## 1. From a decimal to a number -/

/-- The digits of a natural number in base ten, most significant first. -/
def decimalDigits (n : Nat) : List Char := Nat.toDigits 10 n

/-- The value of a run of decimal digits. -/
def natOfDigits (cs : List Char) : Nat :=
  cs.foldl (fun value c => 10 * value + (c.toNat - '0'.toNat)) 0

/-- The number nearest to `digits * 10 ^ exponent`.  Far outside the range of exponents of finite
numbers the answer is known without computing the power. -/
def Binary64.ofDecimal (negative : Bool) (digits : Nat) (exponent : Int) : Binary64 :=
  let magnitude := (decimalDigits digits).length + exponent
  if digits == 0 || magnitude < -400 then .finite negative 0
  else if 400 < magnitude then .infinity negative
  else if 0 ≤ exponent then
    ofQuotient negative (digits * tenTo exponent.toNat * one) 1
  else ofQuotient negative (digits * one) (tenTo (-exponent).toNat)

/-! ## 2. The shortest decimal of a number -/

/-- A positive decimal: `0.d₁d₂… * 10 ^ point`, where the digits have no zero at either end. -/
structure Decimal where
  digits : List Char
  point : Int
deriving Repr, DecidableEq

/-- The positive rational `num / den`, to be compared with decimals. -/
structure Ratio where
  num : Nat
  den : Nat

/-- Whether `low < x < high`, or `≤` on both sides when the ends count. -/
def Ratio.between (low high x : Ratio) (closed : Bool) : Bool :=
  let a := low.num * x.den
  let b := x.num * low.den
  let c := x.num * high.den
  let d := high.num * x.den
  if closed then a ≤ b && c ≤ d else a < b && c < d

/-- The rational `n * 10 ^ e`. -/
def Ratio.ofDecimal (n : Nat) (e : Int) : Ratio :=
  if 0 ≤ e then ⟨n * tenTo e.toNat, 1⟩ else ⟨n, tenTo (-e).toNat⟩

/-- The end points of the interval of rationals that round to `units` units, and whether they
belong to it.  Below a power of two the representable numbers are twice as dense. -/
def roundingInterval (units : Nat) : Ratio × Ratio × Bool :=
  let step := Binary64.grid units
  let steps := units / step
  let below := if steps == twoTo 52 && 1 < step then step else 2 * step
  let den := 4 * Binary64.one
  (⟨4 * units - below, den⟩, ⟨4 * units + 2 * step, den⟩, steps % 2 == 0)

/-- The decimal exponent of `units` units: the least `p` with a value below `10 ^ p`. -/
def decimalPoint (units : Nat) : Int :=
  let scaled := units * tenTo 400 / Binary64.one
  ((decimalDigits scaled).length : Int) - 400

/-- The multiple of `10 ^ e` nearest to `units` units among those that round to it. -/
def onGrid? (tie : Tie) (units : Nat) (e : Int) : Option Nat :=
  let (low, high, closed) := roundingInterval units
  let num := units * (if e < 0 then tenTo (-e).toNat else 1)
  let den := Binary64.one * (if 0 ≤ e then tenTo e.toNat else 1)
  let fits := fun n => 0 < n && low.between high (Ratio.ofDecimal n e) closed
  let below := num / den
  match fits below, fits (below + 1) with
  | true, true => some (tie.nearest num den)
  | true, false => some below
  | false, true => some (below + 1)
  | false, false => none

/-- The first grid of at most `more` more digits on which some decimal reads back. -/
def firstGrid (tie : Tie) (units : Nat) (point : Int) (used : Nat) : (more : Nat) → Decimal
  | 0 => ⟨[], point⟩
  | more + 1 =>
    match onGrid? tie units (point - (used + 1)) with
    | some n =>
      let written := decimalDigits n
      ⟨(written.reverse.dropWhile (· == '0')).reverse,
        point - (used + 1) + written.length⟩
    | none => firstGrid tie units point (used + 1) more

/-- The shortest decimal that reads back as `units` units, and of those the nearest.  Seventeen
digits are always enough. -/
def shortest (tie : Tie) (units : Nat) : Decimal :=
  firstGrid tie units (decimalPoint units) 0 17

/-! ## 3. Layouts -/

/-- How a number is laid out as text. -/
structure Layout where
  /-- Decimals are written without an exponent when the exponent of their first digit is at least
  this … -/
  plainFrom : Int
  /-- … and at most this. -/
  plainTo : Int
  /-- Whether a whole number written without an exponent ends in `.0`. -/
  keepPoint : Bool
  /-- Which of two shortest decimals is written that are equally near. -/
  tie : Tie
deriving Repr, DecidableEq

/-- Digits with the point in its place. -/
def plainText (layout : Layout) (d : Decimal) : List Char :=
  let n := d.digits.length
  if d.point ≤ 0 then
    '0' :: '.' :: List.replicate (-d.point).toNat '0' ++ d.digits
  else if d.point.toNat < n then
    d.digits.take d.point.toNat ++ '.' :: d.digits.drop d.point.toNat
  else
    d.digits ++ List.replicate (d.point.toNat - n) '0' ++
      (if layout.keepPoint then ['.', '0'] else [])

/-- One digit, the others behind the point, and the exponent with its sign. -/
def exponentText (d : Decimal) : List Char :=
  let exponent := d.point - 1
  let fraction := match d.digits.drop 1 with
    | [] => []
    | rest => '.' :: rest
  d.digits.take 1 ++ fraction ++ 'e' :: (if exponent < 0 then '-' else '+') ::
    decimalDigits exponent.natAbs

/-- The text of a magnitude. -/
def magnitudeText (layout : Layout) (units : Nat) : List Char :=
  if units == 0 then if layout.keepPoint then ['0', '.', '0'] else ['0']
  else
    let d := shortest layout.tie units
    if layout.plainFrom ≤ d.point - 1 && d.point - 1 ≤ layout.plainTo then plainText layout d
    else exponentText d

/-- The text of a number. -/
def Binary64.text (layout : Layout) : Binary64 → List Char
  | .nan => ['N', 'a', 'N']
  | .infinity negative => (if negative then ['-'] else []) ++ ['i', 'n', 'f']
  | .finite negative units => (if negative then ['-'] else []) ++ magnitudeText layout units

end Shortlist.Number
