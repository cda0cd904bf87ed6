import Shortlist.Json.Printer
import Shortlist.Record.Basic

/-!
# Records as JSON objects

Every fixed field has one key.  The title is required; the other five plain texts are empty when
their key is absent; an optional field may be absent or null.  A member with any other key is an
extra.  Written back, a record has its six plain texts, its set optional fields, and its extras.
-/

namespace Shortlist.Record

open Json (Value Numeral)

/-! ## 1. Reading -/

/-- The keys of the fixed fields. -/
def fixedKeys : List String :=
  ["title", "company", "location", "type", "link", "source", "description", "budget", "salary",
    "date_posted", "keyword_searched", "region", "relevance_score", "job_category",
    "job_category_icon", "region_category", "region_icon", "is_remote"]

/-- A text that has to be there. -/
def requiredText? : Option Value → Option String
  | some (.string s) => some s
  | _ => none

/-- A text that is empty when it is not there. -/
def plainText? : Option Value → Option String
  | none => some ""
  | some (.string s) => some s
  | _ => none

/-- A text that may be missing. -/
def optionalText? : Option Value → Option (Option String)
  | none => some none
  | some .null => some none
  | some (.string s) => some (some s)
  | _ => none

/-- A score from 0 to 255 that may be missing. -/
def optionalScore? : Option Value → Option (Option UInt8)
  | none => some none
  | some .null => some none
  | some (.number (.integer n)) =>
    if 0 ≤ n ∧ n ≤ 255 then some (some (UInt8.ofNat n.toNat)) else none
  | _ => none

/-- A flag that may be missing. -/
def optionalFlag? : Option Value → Option (Option Bool)
  | none => some none
  | some .null => some none
  | some (.bool b) => some (some b)
  | _ => none

/-- The record that the members of an object describe. -/
def ofMembers? (members : Keyed Value) : Option Record := do
  let field := fun key => Keyed.find? key members
  let title ← requiredText? (field "title")
  let company ← plainText? (field "company")
  let location ← plainText? (field "location")
  let jobType ← plainText? (field "type")
  let link ← plainText? (field "link")
  let source ← plainText? (field "source")
  let description ← optionalText? (field "description")
  let budget ← optionalText? (field "budget")
  let salary ← optionalText? (field "salary")
  let datePosted ← optionalText? (field "date_posted")
  let keywordSearched ← optionalText? (field "keyword_searched")
  let region ← optionalText? (field "region")
  let relevanceScore ← optionalScore? (field "relevance_score")
  let jobCategory ← optionalText? (field "job_category")
  let jobCategoryIcon ← optionalText? (field "job_category_icon")
  let regionCategory ← optionalText? (field "region_category")
  let regionIcon ← optionalText? (field "region_icon")
  let isRemote ← optionalFlag? (field "is_remote")
  return {
    title, company, location, jobType, link, source, description, budget, salary, datePosted,
    keywordSearched, region, relevanceScore, jobCategory, jobCategoryIcon, regionCategory,
    regionIcon, isRemote
    extras := Keyed.keep (fun key => !fixedKeys.contains key) members }

/-- The record that a JSON value describes; only objects describe one. -/
def ofJson? : Value → Option Record
  | .object members => ofMembers? members
  | _ => none

/-! ## 2. Writing -/

/-- A member for an optional field that is set, and none otherwise. -/
def setMember {α : Type} (key : String) (write : α → Value) : Option α → List (String × Value)
  | none => []
  | some a => [(key, write a)]

/-- The members of the fixed fields, in their order. -/
def fixedMembers (r : Record) : List (String × Value) :=
  [("title", .string r.title), ("company", .string r.company), ("location", .string r.location),
    ("type", .string r.jobType), ("link", .string r.link), ("source", .string r.source)] ++
  setMember "description" .string r.description ++
  setMember "budget" .string r.budget ++
  setMember "salary" .string r.salary ++
  setMember "date_posted" .string r.datePosted ++
  setMember "keyword_searched" .string r.keywordSearched ++
  setMember "region" .string r.region ++
  setMember "relevance_score" (fun n => .number (.integer n.toNat)) r.relevanceScore ++
  setMember "job_category" .string r.jobCategory ++
  setMember "job_category_icon" .string r.jobCategoryIcon ++
  setMember "region_category" .string r.regionCategory ++
  setMember "region_icon" .string r.regionIcon ++
  setMember "is_remote" .bool r.isRemote

/-- All members in the order in which they are written: the fixed fields, then the extras. -/
def members (r : Record) : List (String × Value) := r.fixedMembers ++ r.extras

/-- The record as a JSON object. -/
def toJson (r : Record) : Value := .object (Keyed.insertAll r.members [])

/-- The record as one line of JSON text. -/
def line (r : Record) : String := (Value.object r.members).text

end Shortlist.Record
