import Shortlist.Text.Ranges

/-!
# Blanks and trimming

A blank is a character with the Unicode property `White_Space`.  `trim` drops the blanks at both
ends of a text and keeps those inside.
-/

namespace Shortlist.Text

/-! ## 1. The property -/

/-- The code points with the property `White_Space`. -/
def blankTable : Ranges :=
  [ (0x9, 0xD), (0x20, 0x20), (0x85, 0x85), (0xA0, 0xA0), (0x1680, 0x1680), (0x2000, 0x200A),
    (0x2028, 0x2029), (0x202F, 0x202F), (0x205F, 0x205F), (0x3000, 0x3000) ]

theorem sorted_blankTable : blankTable.Sorted := by decide +kernel

/-- Whether a character is a blank. -/
def isBlank (c : Char) : Bool := blankTable.holds c

/-! ## 2. Trimming -/

/-- The characters without the blanks that end them. -/
def trimRight (cs : List Char) : List Char := (cs.reverse.dropWhile isBlank).reverse

/-- The characters without the blanks at either end. -/
def trimChars (cs : List Char) : List Char := trimRight (cs.dropWhile isBlank)

/-- The text without the blanks at either end. -/
def trim (s : String) : String := String.ofList (trimChars s.toList)

end Shortlist.Text
