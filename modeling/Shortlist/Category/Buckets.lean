import Shortlist.Category.Basic
import Shortlist.Keyed
import Shortlist.Record.Basic

/-!
# Buckets and filters

Categorized records are sorted into buckets, one for each kind of employment and one for each known
region; what has neither goes to the bucket `other`.  The filters select the records of one
category from a list and keep their order.
-/

namespace Shortlist

/-! ## 1. Buckets -/

/-- The name of the bucket for everything else. -/
def otherBucket : String := "other"

/-- The kinds of employment that have a bucket. -/
def typeBuckets : List String := ["remote", "freelance", "fulltime", "hybrid"]

/-- The regions that have a bucket. -/
def regionBuckets : List String := ["egypt", "uae", "europe", "global"]

/-- The bucket for a category, given those that have one. -/
def bucketFor (known : List String) : Option String → String
  | some name => if known.contains name then name else otherBucket
  | none => otherBucket

/-- The bucket of a record by its kind of employment. -/
def Record.typeBucket (r : Record) : String := bucketFor typeBuckets r.jobCategory

/-- The bucket of a record by its region. -/
def Record.regionBucket (r : Record) : String := bucketFor regionBuckets r.regionCategory

/-- Puts a record last into a bucket. -/
def putInto (key : String) (r : Record) (buckets : Keyed (List Record)) : Keyed (List Record) :=
  Keyed.insert key ((Keyed.find? key buckets).getD [] ++ [r]) buckets

/-- Records sorted into buckets; a bucket is there when it holds a record. -/
structure Buckets where
  byType : Keyed (List Record)
  byRegion : Keyed (List Record)
deriving Repr, DecidableEq

/-- Sorts records into buckets. -/
def Buckets.ofRecords (records : List Record) : Buckets where
  byType := records.foldl (fun buckets r => putInto r.typeBucket r buckets) []
  byRegion := records.foldl (fun buckets r => putInto r.regionBucket r buckets) []

/-! ## 2. Filters -/

/-- The records with a kind of employment. -/
def ofJobType (type : JobType) (records : List Record) : List Record :=
  records.filter (·.jobCategory == some type.name)

/-- The records of a region. -/
def ofRegion (region : Region) (records : List Record) : List Record :=
  records.filter (·.regionCategory == some region.name)

/-- The records that are marked as remote. -/
def remoteOnly (records : List Record) : List Record := records.filter (·.isRemote == some true)

end Shortlist
