/-!
# Finding and splitting

Plain searches in a text: whether a word occurs in it, its lines, and the parts between two
occurrences of a separator.
-/

namespace Shortlist.Text

/-! ## 1. Occurrence -/

/-- Whether the characters `word` occur somewhere as a block. -/
def occursIn (word : List Char) : List Char → Bool
  | [] => word.isEmpty
  | c :: rest => word.isPrefixOf (c :: rest) || occursIn word rest

/-- Whether `word` occurs in the text. -/
def contains (text word : String) : Bool := occursIn word.toList text.toList

/-! ## 2. Splitting -/

/-- The parts between the separators: one more than there are separators. -/
def splitAt (separator : Char) : List Char → List (List Char)
  | [] => [[]]
  | c :: rest =>
    match splitAt separator rest with
    | part :: parts => if c == separator then [] :: part :: parts else (c :: part) :: parts
    | [] => [[c]]

/-- The lines of a text, without the line feeds. -/
def lines (cs : List Char) : List (List Char) := splitAt '\n' cs

end Shortlist.Text
