import Shortlist.Keyed
import Shortlist.Text.Ascii
import Shortlist.Text.Search

/-!
# Request headers

A request goes out with the headers of one browser.  Changing the browser removes all headers that
belong to the old one, in whatever case their names are written, and sets those of the new one; other
headers stay.
-/

namespace Shortlist.Headers

/-! ## 1. Browsers -/

/-- The browsers that a request can look like. -/
inductive Browser where
  | chrome
  | edge
  | firefox
  | safari
deriving Repr, DecidableEq

namespace Browser

/-- The name of a browser. -/
def name : Browser → String
  | .chrome => "Chrome"
  | .edge => "Edge"
  | .firefox => "Firefox"
  | .safari => "Safari"

/-- The browser that a user agent belongs to. -/
def ofAgent (agent : String) : Browser :=
  if Text.contains agent "Edg/" then .edge
  else if Text.contains agent "Firefox/" then .firefox
  else if Text.contains agent "Chrome/" then .chrome
  else .safari

/-- The brands that a browser claims in its client hints; some browsers send no hints. -/
def brands? : Browser → Option String
  | .chrome => some "\"Chromium\";v=\"121\", \"Google Chrome\";v=\"121\""
  | .edge => some "\"Chromium\";v=\"120\", \"Microsoft Edge\";v=\"120\""
  | .firefox => none
  | .safari => none

end Browser

/-- The platform that a user agent names, as it stands in a client hint. -/
def platform (agent : String) : String :=
  if Text.contains agent "Windows" then "\"Windows\""
  else if Text.contains agent "Mac OS X" then "\"macOS\""
  else "\"Linux\""

/-! ## 2. Headers of a browser -/

/-- The headers that belong to the browser. -/
def managed : List String :=
  ["User-Agent", "Accept", "Accept-Language", "DNT", "Upgrade-Insecure-Requests", "Sec-CH-UA",
    "Sec-CH-UA-Mobile", "Sec-CH-UA-Platform", "Sec-Fetch-Dest", "Sec-Fetch-Mode",
    "Sec-Fetch-Site"]

/-- Whether a header belongs to the browser, in any case of its letters. -/
def isManaged (name : String) : Bool := managed.any (Text.sameIgnoringCase · name)

/-- The headers that every browser sends. -/
def common : List (String × String) :=
  [("Accept",
      "text/html,application/xhtml+xml,application/xml;q=0.9,image/avif,image/webp,*/*;q=0.8"),
    ("Accept-Language", "en-US,en;q=0.9,ar;q=0.8"), ("DNT", "1"),
    ("Upgrade-Insecure-Requests", "1")]

/-- The client hints of a user agent. -/
def hints (agent : String) : List (String × String) :=
  match (Browser.ofAgent agent).brands? with
  | none => []
  | some brands =>
    [("Sec-CH-UA", brands), ("Sec-CH-UA-Mobile", "?0"), ("Sec-CH-UA-Platform", platform agent),
      ("Sec-Fetch-Dest", "document"), ("Sec-Fetch-Mode", "navigate"), ("Sec-Fetch-Site", "none")]

/-- The headers that match a user agent, without the user agent itself. -/
def matching (agent : String) : Keyed String := Keyed.insertAll (common ++ hints agent) []

/-- All headers of a user agent. -/
def full (agent : String) : Keyed String := Keyed.insert "User-Agent" agent (matching agent)

/-- Replaces the browser of a request. -/
def apply (agent : String) (headers : Keyed String) : Keyed String :=
  Keyed.insertAll (full agent) (Keyed.keep (!isManaged ·) headers)

/-! ## 3. User agents -/

/-- The built-in user agents. -/
def builtinAgents : List String :=
  [ "Mozilla/5.0 (Windows NT 10.0; Win64; x64) AppleWebKit/537.36 (KHTML, like " ++
      "Gecko) Chrome/121.0.0.0 Safari/537.36",
    "Mozilla/5.0 (Windows NT 10.0; Win64; x64) AppleWebKit/537.36 (KHTML, like " ++
      "Gecko) Chrome/120.0.0.0 Safari/537.36 Edg/120.0.0.0",
    "Mozilla/5.0 (Macintosh; Intel Mac OS X 10_15_7) AppleWebKit/537.36 (KHTML, like " ++
      "Gecko) Chrome/121.0.0.0 Safari/537.36",
    "Mozilla/5.0 (Macintosh; Intel Mac OS X 10_15_7) AppleWebKit/605.1.15 (KHTML, " ++
      "like Gecko) Version/17.2 Safari/605.1.15",
    "Mozilla/5.0 (X11; Linux x86_64) AppleWebKit/537.36 (KHTML, like Gecko) " ++
      "Chrome/121.0.0.0 Safari/537.36",
    "Mozilla/5.0 (Windows NT 10.0; Win64; x64; rv:122.0) Gecko/20100101 Firefox/122.0",
    "Mozilla/5.0 (X11; Ubuntu; Linux x86_64; rv:121.0) Gecko/20100101 Firefox/121.0" ]

/-- The user agents that requests choose from. -/
structure Rotator where
  agents : List String
deriving Repr, DecidableEq

namespace Rotator

/-- A choice among user agents, or among the built-in ones if there are none. -/
def ofList (agents : List String) : Rotator :=
  if agents.isEmpty then ⟨builtinAgents⟩ else ⟨agents⟩

/-- The user agent that a random number chooses. -/
def choose (r : Rotator) (draw : Nat) : String :=
  (r.agents[draw % r.agents.length]?).getD (builtinAgents.headD "")

end Rotator

end Shortlist.Headers
