/-!
# Digits of base sixteen

Numbers that are written with the digits 0 to 9 and the letters a to f in either case.
-/

namespace Shortlist.Number

/-- The value of a hexadecimal digit. -/
def hexValue? (c : Char) : Option Nat :=
  if '0' ≤ c && c ≤ '9' then some (c.toNat - '0'.toNat)
  else if 'a' ≤ c && c ≤ 'f' then some (c.toNat - 'a'.toNat + 10)
  else if 'A' ≤ c && c ≤ 'F' then some (c.toNat - 'A'.toNat + 10)
  else none

/-- The value of hexadecimal digits. -/
def hexNumber? (cs : List Char) : Option Nat :=
  cs.foldl (fun value c => do return 16 * (← value) + (← hexValue? c)) (some 0)

/-- The character whose code point is written with hexadecimal digits. -/
def hexChar? (cs : List Char) : Option Char :=
  (hexNumber? cs).bind fun n => if n.isValidChar then some (Char.ofNat n) else none

end Shortlist.Number
