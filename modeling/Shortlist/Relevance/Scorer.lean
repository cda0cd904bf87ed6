import Shortlist.Pattern.Compiled
import Shortlist.Record.Basic
import Shortlist.Relevance.Profile
import Shortlist.Text.Search

/-!
# Relevance

A posting is scored from 0 to 100 against a profile.  The score is a sum of six parts, each with a
cap of its own, and is capped itself; a title that is ruled out scores 0.  Besides the score there
are three quick answers to whether a posting is relevant at all: for a posting, for one from a
freelance platform, and for a social post.
-/

namespace Shortlist

open Pattern (CharacterData InvalidPattern Table)

/-! ## 1. The parts of a score -/

/-- The parts of a score. -/
structure ScoreParts where
  vetoed : Bool := false
  titlePattern : Nat := 0
  titleKeywords : Nat := 0
  descriptionKeywords : Nat := 0
  secondaryLanguage : Nat := 0
  tools : Nat := 0
  location : Nat := 0
deriving Repr, DecidableEq

namespace ScoreParts

/-- The largest score. -/
def best : Nat := 100

/-- The points of all parts together. -/
def sum (p : ScoreParts) : Nat :=
  p.titlePattern + p.titleKeywords + p.descriptionKeywords + p.secondaryLanguage + p.tools +
    p.location

/-- The score: the sum of the parts, but at most 100; and 0 for what is ruled out. -/
def total (p : ScoreParts) : Nat := if p.vetoed then 0 else min p.sum best

end ScoreParts

/-! ## 2. The scorer -/

/-- A profile whose tables are compiled. -/
structure Scorer where
  title : Table
  broad : Table
  secondary : Table
  negative : Table
  tools : Table
  narrow : Table
  hiring : Table
  freelanceBroad : Table
  /-- Places in lower case with their points. -/
  locationScores : List (String × UInt8)
deriving Repr, DecidableEq

namespace Scorer

/-- Compiles the tables of a profile.  Keywords match whole words; title patterns, words of the
second language and negative patterns match anywhere. -/
def ofProfile [CharacterData] (p : Profile) : Except InvalidPattern Scorer := do
  let title ← Table.compile "title" p.titlePatterns false
  let broad ← Table.compile "broad keyword" p.broadKeywords true
  let secondary ← Table.compile "secondary language" p.secondaryKeywords false
  let negative ← Table.compile "negative" p.negativePatterns false
  let tools ← Table.compile "tool" p.toolKeywords true
  let narrow ← Table.compile "narrow keyword" p.narrowKeywords true
  let hiring ← Table.compile "hiring indicator" p.hiringIndicators true
  let freelanceBroad ←
    Table.compile "freelance keyword" (p.broadKeywords ++ p.freelanceExtraKeywords) true
  return {
    title, broad, secondary, negative, tools, narrow, hiring, freelanceBroad
    locationScores := p.locationScores.map fun place => (Text.lower place.1, place.2) }

/-! ## 3. Scoring -/

/-- Whether a title is ruled out. -/
def isVetoed (s : Scorer) (title : String) : Bool := s.negative.isMatch title

/-- The points of the best place that is named in the location or the kind of employment. -/
def locationPoints (s : Scorer) (location jobType : String) : Nat :=
  let text := Text.lower (location ++ " " ++ jobType)
  ((s.locationScores.filter fun place => Text.contains text place.1).map
    fun place => place.2.toNat).foldl max 0

/-- So many points for each of `count` matches, up to a cap. -/
def capped (count points cap : Nat) : Nat := min (count * points) cap

/-- The parts of the score of a posting. -/
def parts (s : Scorer) (title description location jobType : String) : ScoreParts :=
  if s.isVetoed title then { vetoed := true }
  else
    let text := title ++ " " ++ description
    { vetoed := false
      titlePattern := if s.title.isMatch title then 35 else 0
      titleKeywords := capped (s.broad.distinctMatches title) 8 24
      descriptionKeywords := capped (s.broad.distinctMatches description) 2 10
      secondaryLanguage := if s.secondary.isMatch text then 5 else 0
      tools := capped (s.tools.distinctMatches text) 5 15
      location := s.locationPoints location jobType }

/-- The score of a posting. -/
def score (s : Scorer) (title description location jobType : String) : Nat :=
  (s.parts title description location jobType).total

/-- The parts of the score of a record. -/
def recordParts (s : Scorer) (r : Record) : ScoreParts :=
  s.parts r.title r.descriptionText r.location r.jobType

/-- The score of a record. -/
def scoreRecord (s : Scorer) (r : Record) : Nat := (s.recordParts r).total

/-! ## 4. Quick answers -/

/-- Whether a posting that is not ruled out matches one of the broad words, or the second
language. -/
def isRelevantBy (s : Scorer) (broad : Table) (title description : String) : Bool :=
  !s.isVetoed title &&
    (broad.isMatch title || broad.isMatch description ||
      s.secondary.isMatch (title ++ " " ++ description))

/-- Whether a posting is relevant. -/
def isRelevant (s : Scorer) (title description : String) : Bool :=
  s.isRelevantBy s.broad title description

/-- Whether a posting of a freelance platform is relevant; more words count there. -/
def isRelevantFreelance (s : Scorer) (title description : String) : Bool :=
  s.isRelevantBy s.freelanceBroad title description

/-- The least length of a social post that says enough. -/
def leastPostLength : Nat := 15

/-- Whether a social post is relevant.  A broad word alone is not enough: the post must also show
that it is about a job. -/
def isRelevantSocial (s : Scorer) (text : String) : Bool :=
  leastPostLength ≤ text.length &&
    (s.secondary.isMatch text || s.narrow.isMatch text ||
      (s.broad.isMatch text && s.hiring.isMatch text))

end Scorer

end Shortlist
