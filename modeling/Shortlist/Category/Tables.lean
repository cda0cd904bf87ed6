/-!
# Category tables

The patterns by which postings are categorized: one table for each kind of employment and each
region, and the names of freelance platforms.
-/

namespace Shortlist

/-- The patterns by which postings are categorized. -/
structure CategoryTables where
  /-- Signs of remote work. -/
  remote : List String := []
  /-- Signs of freelance work. -/
  freelance : List String := []
  /-- Signs of work that is partly remote. -/
  hybrid : List String := []
  /-- Signs of a permanent position. -/
  fulltime : List String := []
  /-- Places in Egypt. -/
  egypt : List String := []
  /-- Places in the United Arab Emirates. -/
  uae : List String := []
  /-- Places in Europe. -/
  europe : List String := []
  /-- Names of platforms that list freelance work only, matched inside the name of the source. -/
  freelancePlatforms : List String := []
deriving Repr, DecidableEq

namespace CategoryTables

/-- Tables without any pattern. -/
def blank : CategoryTables := {}

/-- The built-in tables. -/
def standard : CategoryTables where
  remote :=
    [ r"\bremote\b", r"\bwork\s*from\s*home\b", r"\bwfh\b", r"\bdistributed\b",
      r"\banywhere\b", r"\bfully\s*remote\b", r"\b100%\s*remote\b" ]
  freelance :=
    [ r"\bfreelance\b", r"\bcontract\b", r"\bproject[-\s]based\b", r"\bgig\b", r"\bhourly\b",
      r"\bper\s*project\b", r"\bshort[-\s]term\b" ]
  hybrid :=
    [ r"\bhybrid\b", r"\bflexible\s*(?:work|location)\b",
      r"\b\d+\s*days?\s*(?:in\s*)?office\b", r"\b\d+\s*days?\s*remote\b",
      r"\bpartially\s*remote\b" ]
  fulltime :=
    [ r"\bfull[-\s]?time\b", r"\bpermanent\b", r"\bemployee\b", r"\bsalaried\b", r"\bfte\b" ]
  egypt :=
    [ r"\begypt\b", r"\bcairo\b", r"\balexandria\b", r"\bgiza\b", r"\bmaadi\b",
      r"\bnasr\s*city\b", r"\bnew\s*cairo\b" ]
  uae :=
    [ r"\buae\b", r"\bdubai\b", r"\babu\s*dhabi\b", r"\bsharjah\b", r"\bajman\b",
      r"\bunited\s*arab\s*emirates\b", r"\bemirati\b" ]
  europe :=
    [ r"\bgermany\b", r"\buk\b", r"\bunited\s*kingdom\b", r"\bfrance\b", r"\bnetherlands\b",
      r"\bspain\b", r"\bitaly\b", r"\beurope\b", r"\beu\b", r"\bberlin\b", r"\blondon\b",
      r"\bparis\b", r"\bamsterdam\b" ]
  freelancePlatforms :=
    [ "upwork", "fiverr", "mostaql", "khamsat", "toptal", "freelancer", "peopleperhour",
      "guru", "99designs" ]

end CategoryTables

end Shortlist
