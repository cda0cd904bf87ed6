import Shortlist.Pattern.CharSet

/-!
# Properties of characters

A pattern can ask for the characters with a property of the Unicode standard, as `\p{Greek}` and `\PL`
do, and the name of a group is made of alphabetic and numeric characters.  The tables of these properties
are no part of this library: `CharacterData` is whatever is known of them, and all that is said about
patterns holds whatever that is.
-/

namespace Shortlist.Pattern

/-- What is known of the properties of characters. -/
class CharacterData where
  /-- The characters with a property, given by what stands between the braces of `\p{…}`, or by the one
  character that stands there without braces; none if no property has that name. -/
  property? : String → Option CharSet
  /-- Whether a character is alphabetic. -/
  isAlphabetic : Char → Bool
  /-- Whether a character is numeric. -/
  isNumeric : Char → Bool

/-- The name of a property without what makes no difference in it: case, blanks, hyphens and
underscores. -/
def plainName (name : String) : String :=
  String.ofList ((name.toList.filter fun c => !" -_".toList.contains c).map Char.toLower)

/-- What is known by the tables that there are: few properties have a name, and word characters other
than digits and the underscore count as alphabetic. -/
instance : CharacterData where
  property? name :=
    match plainName name with
    | "any" => some (.outside .nothing)
    | "ascii" => some (.span '\x00' '\x7f')
    | "nd" | "decimalnumber" | "digit" => some .digit
    | "whitespace" | "wspace" | "space" => some .blank
    | _ => none
  isAlphabetic c := Text.isWord c && !Text.isDigit c && c != '_'
  isNumeric c := Text.isDigit c

end Shortlist.Pattern
