/-!
# Case of ASCII letters

Some names are compared without regard to the case of the letters A to Z, and of no others.
-/

namespace Shortlist.Text

/-- The text with A to Z in lower case. -/
def asciiLower (s : String) : List Char := s.toList.map Char.toLower

/-- Whether two texts differ at most in the case of ASCII letters. -/
def sameIgnoringCase (a b : String) : Bool := asciiLower a == asciiLower b

end Shortlist.Text
