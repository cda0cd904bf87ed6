import Shortlist.Json.Basic

/-!
# Job records

A record describes one job posting.  Six texts are always there, possibly empty; the others are
optional; and whatever else the source said about the posting is kept as extras.  The last group of
fields is filled by scoring and categorizing.
-/

namespace Shortlist

/-! ## 1. The type -/

/-- A job posting. -/
structure Record where
  title : String
  company : String := ""
  location : String := ""
  /-- The kind of employment, in the words of the source. -/
  jobType : String := ""
  /-- The link that identifies the posting. -/
  link : String := ""
  /-- The name of the source. -/
  source : String := ""
  description : Option String := none
  budget : Option String := none
  salary : Option String := none
  datePosted : Option String := none
  keywordSearched : Option String := none
  /-- What the source says about the region. -/
  region : Option String := none
  relevanceScore : Option UInt8 := none
  jobCategory : Option String := none
  jobCategoryIcon : Option String := none
  regionCategory : Option String := none
  regionIcon : Option String := none
  isRemote : Option Bool := none
  /-- Everything else that the source said. -/
  extras : Keyed Json.Value := []
deriving Repr, DecidableEq

namespace Record

/-! ## 2. Building -/

/-- A record with a title, a link and a source only. -/
def new (title link source : String) : Record := { title, link, source }

/-- Sets one of the extras. -/
def withExtra (r : Record) (key : String) (value : Json.Value) : Record :=
  { r with extras := Keyed.insert key value r.extras }

/-- The description, empty if there is none. -/
def descriptionText (r : Record) : String := r.description.getD ""

/-! ## 3. The text fields -/

/-- The fixed fields that hold a text, in their order; unset ones are left out. -/
def texts (r : Record) : List String :=
  [r.title, r.company, r.location, r.jobType, r.link, r.source] ++
    [r.description, r.budget, r.salary, r.datePosted, r.keywordSearched, r.region,
      r.jobCategory, r.jobCategoryIcon, r.regionCategory, r.regionIcon].filterMap id

/-- Changes every fixed field that holds a text. -/
def mapTexts (f : String → String) (r : Record) : Record :=
  { r with
    title := f r.title
    company := f r.company
    location := f r.location
    jobType := f r.jobType
    link := f r.link
    source := f r.source
    description := r.description.map f
    budget := r.budget.map f
    salary := r.salary.map f
    datePosted := r.datePosted.map f
    keywordSearched := r.keywordSearched.map f
    region := r.region.map f
    jobCategory := r.jobCategory.map f
    jobCategoryIcon := r.jobCategoryIcon.map f
    regionCategory := r.regionCategory.map f
    regionIcon := r.regionIcon.map f }

end Record

end Shortlist
