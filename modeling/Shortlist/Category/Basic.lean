/-!
# Categories

The kinds of employment and the regions that postings are sorted into, with their names and icons.
-/

namespace Shortlist

/-- The kinds of employment. -/
inductive JobType where
  | remote
  | freelance
  | fulltime
  | hybrid
deriving Repr, DecidableEq

namespace JobType

/-- All kinds of employment. -/
def all : List JobType := [.remote, .freelance, .fulltime, .hybrid]

/-- The name of a kind of employment. -/
def name : JobType → String
  | .remote => "remote"
  | .freelance => "freelance"
  | .fulltime => "fulltime"
  | .hybrid => "hybrid"

/-- The icon of a kind of employment. -/
def icon : JobType → String
  | .remote => "🏠"
  | .freelance => "💼"
  | .fulltime => "🏢"
  | .hybrid => "🔄"

/-- Freelance work counts as remote, too. -/
def isRemote : JobType → Bool
  | .remote => true
  | .freelance => true
  | .fulltime => false
  | .hybrid => false

/-- The kind of employment with a name. -/
def ofName? (s : String) : Option JobType := all.find? (·.name == s)

end JobType

/-- The regions. -/
inductive Region where
  | egypt
  | uae
  | europe
  | global
  | unknown
deriving Repr, DecidableEq

namespace Region

/-- All regions. -/
def all : List Region := [.egypt, .uae, .europe, .global, .unknown]

/-- The name of a region. -/
def name : Region → String
  | .egypt => "egypt"
  | .uae => "uae"
  | .europe => "europe"
  | .global => "global"
  | .unknown => "unknown"

/-- The icon of a region. -/
def icon : Region → String
  | .egypt => "🇪🇬"
  | .uae => "🇦🇪"
  | .europe => "🇪🇺"
  | .global => "🌍"
  | .unknown => "📍"

/-- The region with a name. -/
def ofName? (s : String) : Option Region := all.find? (·.name == s)

end Region

end Shortlist
