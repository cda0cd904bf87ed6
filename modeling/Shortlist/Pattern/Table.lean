import Shortlist.Pattern.Footprint
import Shortlist.Pattern.Parser
import Shortlist.Pattern.Search
import Shortlist.Text.Lower

/-!
# Tables of patterns

A table is a list of patterns that is used as one: a text matches the table when one of the patterns
matches somewhere.  The patterns are joined as alternatives into one text, which is put into a group
and, for a table of whole words, between two word boundaries; only that text is parsed, so it is the
joined text that is valid or not, and that may be too large.
-/

namespace Shortlist.Pattern

variable [CharacterData]

/-- A table of patterns that is ready to be used; an empty one has no program. -/
structure Table where
  program : Option Program
deriving Repr, DecidableEq

namespace Table

/-- The text that the patterns of a table are joined into. -/
def sourceText (patterns : List String) (wholeWords : Bool) : String :=
  let joined := "|".intercalate patterns
  if wholeWords then "\\b(?:" ++ joined ++ ")\\b" else "(?:" ++ joined ++ ")"

/-- The table of the patterns; none if their joined text is invalid or too large. -/
def compile? (patterns : List String) (wholeWords : Bool) : Option Table :=
  if patterns.isEmpty then some ⟨none⟩
  else
    ((Re.parse? (sourceText patterns wholeWords).toList).filter Re.fits).map fun r =>
      ⟨some r.program⟩

/-- Whether a pattern of the table matches somewhere in the text. -/
def isMatch (t : Table) (text : String) : Bool :=
  match t.program with
  | none => false
  | some p => p.foundIn none text.toList

/-- The number of different matches in the text, where case makes no difference. -/
def distinctMatches (t : Table) (text : String) : Nat :=
  match t.program with
  | none => 0
  | some p => ((p.occurrences text.toList).map Text.lowerChars).eraseDups.length

end Table

end Shortlist.Pattern
