import Shortlist.Category.Basic
import Shortlist.Category.Tables
import Shortlist.Pattern.Compiled
import Shortlist.Record.Basic
import Shortlist.Text.Search

/-!
# Categorizing

Every posting gets exactly one kind of employment and one region.  A posting from a freelance
platform is freelance; otherwise the tables are tried in the order freelance, hybrid, remote, and
what matches none of them is full-time.  The regions are tried in the order Egypt, Emirates, Europe.
-/

namespace Shortlist

open Pattern (CharacterData InvalidPattern Table)

/-- Category tables that are compiled. -/
structure Categorizer where
  remote : Table
  freelance : Table
  hybrid : Table
  fulltime : Table
  egypt : Table
  uae : Table
  europe : Table
  /-- Names of platforms in lower case. -/
  freelancePlatforms : List String
deriving Repr, DecidableEq

namespace Categorizer

/-- Compiles category tables; all of them match anywhere in a text. -/
def ofTables [CharacterData] (t : CategoryTables) : Except InvalidPattern Categorizer := do
  let remote ← Table.compile "remote" t.remote false
  let freelance ← Table.compile "freelance" t.freelance false
  let hybrid ← Table.compile "hybrid" t.hybrid false
  let fulltime ← Table.compile "fulltime" t.fulltime false
  let egypt ← Table.compile "egypt" t.egypt false
  let uae ← Table.compile "uae" t.uae false
  let europe ← Table.compile "europe" t.europe false
  return {
    remote, freelance, hybrid, fulltime, egypt, uae, europe
    freelancePlatforms := t.freelancePlatforms.map Text.lower }

/-- The texts that are not empty, with a blank between them. -/
def joinPresent (texts : List String) : String := " ".intercalate (texts.filter (· != ""))

/-- The kind of employment of a posting. -/
def jobType (c : Categorizer) (title location kind source company : String) : JobType :=
  let text := joinPresent [title, location, kind, company]
  let lowered := Text.lower source
  if c.freelancePlatforms.any (Text.contains lowered) then .freelance
  else if c.freelance.isMatch text then .freelance
  else if c.hybrid.isMatch text then .hybrid
  else if c.remote.isMatch text then .remote
  else .fulltime

/-- The region of a posting, from its location and what the source says about the region. -/
def region (c : Categorizer) (location hint : String) : Region :=
  let text := location ++ " " ++ hint
  let lowered := Text.lower text
  if c.egypt.isMatch text then .egypt
  else if c.uae.isMatch text then .uae
  else if c.europe.isMatch text then .europe
  else if Text.contains lowered "remote" || Text.contains lowered "global" then .global
  else .unknown

/-- Fills the category fields of a record. -/
def categorize (c : Categorizer) (r : Record) : Record :=
  let type := c.jobType r.title r.location r.jobType r.source r.company
  let region := c.region r.location (r.region.getD "")
  { r with
    jobCategory := some type.name
    jobCategoryIcon := some type.icon
    regionCategory := some region.name
    regionIcon := some region.icon
    isRemote := some type.isRemote }

end Categorizer

end Shortlist
