import Mathlib.Data.List.Induction
import Shortlist.Category.Buckets
import Shortlist.Category.Categorizer
import Shortlist.Proofs.Keyed

/-!
# Buckets, filters and flags agree

The same division of records is told in several ways: by the names of the kinds and regions, by the
lists of names that have a bucket, by the filters, which compare names, and by the flag for remote work.
Records may come with any category at all, as a source can claim one; a name that is none of the known
ones belongs to the bucket `other`.

Both tables of buckets are filled in the same way, from a list of known names and the category of each
record, so everything is shown once, for any such list (`Grouped`).  The filter for a name then is the
bucket of that name, and what the lists of names have to do with kinds and regions is checked at the
end.
-/

namespace Shortlist

/-! ## 1. Sorting by a key -/

/-- Records sorted into buckets by a key. -/
def bucketsBy (key : Record → String) (records : List Record) : Keyed (List Record) :=
  records.foldl (fun buckets r => putInto (key r) r buckets) []

/-- A bucket holds just these records, in this order; there is no bucket that holds none. -/
def Holds (buckets : Keyed (List Record)) (name : String) (records : List Record) : Prop :=
  Keyed.find? name buckets = if records = [] then none else some records

variable {key : Record → String} {records : List Record}

theorem bucketsBy_concat (key : Record → String) (records : List Record) (r : Record) :
    bucketsBy key (records ++ [r]) = putInto (key r) r (bucketsBy key records) := by
  simp [bucketsBy]

theorem sorted_bucketsBy (key : Record → String) (records : List Record) :
    Keyed.Sorted (bucketsBy key records) := by
  induction records using List.reverseRecOn with
  | nil => exact List.Pairwise.nil
  | append_singleton records r ih =>
    rw [bucketsBy_concat]
    exact ih.insert _ _

/-- **A bucket holds the records with its key**, in the order of the list. -/
theorem holds_bucketsBy (key : Record → String) (records : List Record) (name : String) :
    Holds (bucketsBy key records) name (records.filter (key · == name)) := by
  induction records using List.reverseRecOn with
  | nil => rfl
  | append_singleton records r ih =>
    rw [Holds, bucketsBy_concat, putInto, Keyed.find?_insert, List.filter_append]
    by_cases hname : name = key r
    · subst hname
      rw [ih]
      by_cases hnone : records.filter (key · == key r) = []
      · simp [hnone]
      · simp [hnone]
    · simpa [Holds, hname, Ne.symm hname] using ih

/-- Putting a record into a bucket adds it to what all buckets hold together. -/
theorem flatMap_putInto_perm (name : String) (r : Record) :
    ∀ {buckets : Keyed (List Record)}, Keyed.Sorted buckets →
      ((putInto name r buckets).flatMap Prod.snd).Perm (buckets.flatMap Prod.snd ++ [r])
  | [], _ => List.Perm.refl _
  | (k, held) :: buckets, h => by
    obtain ⟨hk, hbuckets⟩ := List.pairwise_cons.mp h
    by_cases hlt : name < k
    · have hnone : Keyed.find? name ((k, held) :: buckets) = none := by
        refine Keyed.find?_eq_none fun b hb => ?_
        rcases List.mem_cons.mp hb with rfl | hb
        · exact ne_of_gt hlt
        · exact ne_of_gt (lt_trans hlt (hk b hb))
      rw [putInto, hnone, Keyed.insert, if_pos hlt]
      exact (List.perm_append_singleton r _).symm
    · by_cases heq : name = k
      · subst heq
        rw [putInto, Keyed.find?, if_pos rfl, Keyed.insert, if_neg hlt, if_pos rfl]
        simp only [Option.getD_some, List.flatMap_cons, List.append_assoc]
        exact (List.perm_append_comm).append_left held
      · have hrest := flatMap_putInto_perm name r hbuckets
        rw [putInto, Keyed.find?, if_neg heq, Keyed.insert, if_neg hlt, if_neg heq, ← putInto]
        simp only [List.flatMap_cons, List.append_assoc]
        exact hrest.append_left held

/-- **All buckets together hold the records of the list**, each as often as it is there. -/
theorem flatMap_bucketsBy_perm (key : Record → String) (records : List Record) :
    ((bucketsBy key records).flatMap Prod.snd).Perm records := by
  induction records using List.reverseRecOn with
  | nil => exact List.Perm.refl _
  | append_singleton records r ih =>
    rw [bucketsBy_concat]
    exact (flatMap_putInto_perm _ r (sorted_bucketsBy key records)).trans (ih.append_right [r])

/-! ## 2. Known names -/

/-- A known name is the bucket of its own category only. -/
theorem bucketFor_eq_iff {known : List String} {name : String} (hname : name ∈ known)
    (hother : otherBucket ∉ known) {category : Option String} :
    bucketFor known category = name ↔ category = some name := by
  have hne : otherBucket ≠ name := fun h => hother (h ▸ hname)
  cases category with
  | none => simp [bucketFor, hne]
  | some given =>
    by_cases hgiven : given ∈ known
    · simp [bucketFor, hgiven]
    · have hdiffer : given ≠ name := fun h => hgiven (h ▸ hname)
      simp [bucketFor, hgiven, hne, hdiffer]

/-- The bucket for everything else is that of all categories but the known names. -/
theorem bucketFor_eq_other_iff {known : List String} (hother : otherBucket ∉ known)
    {category : Option String} :
    bucketFor known category = otherBucket ↔ ∀ name ∈ known, category ≠ some name := by
  cases category with
  | none => simp [bucketFor]
  | some given =>
    by_cases hgiven : given ∈ known
    · have hne : given ≠ otherBucket := fun h => hother (h ▸ hgiven)
      simp [bucketFor, hgiven, hne]
    · simp only [bucketFor, List.contains_eq_mem, hgiven, decide_false, Bool.false_eq_true,
        if_false, true_iff]
      intro name hname heq
      cases heq
      exact hgiven hname

/-- **Buckets divide records by their categories**, of which some have a bucket. -/
structure Grouped (buckets : Keyed (List Record)) (records : List Record)
    (category : Record → Option String) (names : List String) : Prop where
  /-- No two buckets have the same name. -/
  distinct : (buckets.map Prod.fst).Nodup
  /-- Every record is in one bucket and in one only, as often as it is in the list. -/
  once : (buckets.flatMap Prod.snd).Perm records
  /-- A bucket is not empty and keeps the order of the list. -/
  inOrder : ∀ bucket ∈ buckets, bucket.2 ≠ [] ∧ bucket.2.Sublist records
  named : ∀ bucket ∈ buckets, bucket.1 ∈ names ∨ bucket.1 = otherBucket
  known : ∀ name ∈ names, Holds buckets name (records.filter (category · == some name))
  other : Holds buckets otherBucket
    (records.filter fun r => names.all fun name => category r != some name)

/-- Sorting by known names divides the records. -/
theorem grouped_bucketsBy {known : List String} (hother : otherBucket ∉ known)
    (category : Record → Option String) (records : List Record) :
    Grouped (bucketsBy (fun r => bucketFor known (category r)) records) records category known := by
  have hholds := holds_bucketsBy (fun r => bucketFor known (category r)) records
  have hsorted := sorted_bucketsBy (fun r => bucketFor known (category r)) records
  have hbucket : ∀ bucket ∈ bucketsBy (fun r => bucketFor known (category r)) records,
      bucket.2 ≠ [] ∧
        bucket.2 = records.filter fun r => bucketFor known (category r) == bucket.1 := by
    intro bucket hmem
    have hfind := hsorted.find?_of_mem hmem
    rw [hholds bucket.1] at hfind
    split at hfind
    · cases hfind
    · rename_i hne
      exact ⟨Option.some.inj hfind ▸ hne, (Option.some.inj hfind).symm⟩
  refine ⟨?_, flatMap_bucketsBy_perm _ _, fun bucket hmem => ?_, fun bucket hmem => ?_,
    fun name hname => ?_, ?_⟩
  · rw [List.Nodup, List.pairwise_map]
    exact hsorted.imp fun hlt => ne_of_lt hlt
  · obtain ⟨hne, heq⟩ := hbucket bucket hmem
    exact ⟨hne, heq ▸ List.filter_sublist⟩
  · -- the bucket holds a record, which went there because of its category
    obtain ⟨hne, heq⟩ := hbucket bucket hmem
    obtain ⟨r, hr⟩ := List.exists_mem_of_ne_nil _ hne
    rw [heq, List.mem_filter, beq_iff_eq] at hr
    rw [← hr.2]
    unfold bucketFor
    split
    · split
      · rename_i hcontains
        exact Or.inl (List.contains_iff_mem.mp hcontains)
      · exact Or.inr rfl
    · exact Or.inr rfl
  · have hfilter := hholds name
    simp only [beq_eq_decide, bucketFor_eq_iff hname hother] at hfilter
    simpa only [beq_eq_decide] using hfilter
  · have hfilter := hholds otherBucket
    simp only [beq_eq_decide, bucketFor_eq_other_iff hother] at hfilter
    simpa [List.all_eq, bne_iff_ne] using hfilter

/-! ## 3. Kinds and regions -/

/-- The regions that have a bucket. -/
def Region.known : List Region := all.filter (· != .unknown)

theorem JobType.mem_all (type : JobType) : type ∈ all := by
  cases type <;> decide

theorem Region.mem_known {region : Region} : region ∈ known ↔ region ≠ .unknown := by
  cases region <;> decide

section

variable [Pattern.CharacterData]

/-- The record was categorized, by whatever tables and whatever it was before. -/
def Categorized (r : Record) : Prop :=
  ∃ tables c before, Categorizer.ofTables tables = .ok c ∧ r = c.categorize before

namespace Categorized

variable {r : Record}

/-- A categorized record has one of the kinds, and the flag of that kind. -/
theorem exists_type (h : Categorized r) :
    ∃ type : JobType, r.jobCategory = some type.name ∧ r.isRemote = some type.isRemote := by
  obtain ⟨tables, c, before, -, rfl⟩ := h
  exact ⟨_, rfl, rfl⟩

theorem exists_region (h : Categorized r) :
    ∃ region : Region, r.regionCategory = some region.name := by
  obtain ⟨tables, c, before, -, rfl⟩ := h
  exact ⟨_, rfl⟩

/-- No categorized record is left over by the kinds. -/
theorem not_all_ne (h : Categorized r) :
    ((JobType.all.map JobType.name).all fun name => r.jobCategory != some name) = false := by
  obtain ⟨type, htype, -⟩ := h.exists_type
  rw [List.all_eq_false]
  exact ⟨type.name, List.mem_map_of_mem type.mem_all, by simp [htype]⟩

/-- The categorized records that are left over by the regions are those of no known region. -/
theorem all_ne_iff (h : Categorized r) :
    ((Region.known.map Region.name).all fun name => r.regionCategory != some name) =
      (r.regionCategory == some Region.unknown.name) := by
  obtain ⟨region, hregion⟩ := h.exists_region
  rw [hregion]
  cases region <;> decide

/-- The flag of a categorized record says whether its kind counts as remote. -/
theorem isRemote_iff (h : Categorized r) :
    (r.isRemote == some true) = (r.jobCategory == some JobType.remote.name ||
      r.jobCategory == some JobType.freelance.name) := by
  obtain ⟨type, htype, hremote⟩ := h.exists_type
  rw [htype, hremote]
  cases type <;> decide

end Categorized

/-- **Buckets, filters and flags agree.**  Both tables of buckets divide the records.  The bucket of a
kind or of a known region holds what the filter for it selects, and is there when that is anything; the
bucket for everything else holds the other records.  If all records were categorized, no record is left
over by the kinds, those left over by the regions are those of no known region, and the flag selects
the records that are remote or freelance. -/
theorem buckets_agree_with_filters (records : List Record) :
    Grouped (Buckets.ofRecords records).byType records Record.jobCategory
        (JobType.all.map JobType.name) ∧
      Grouped (Buckets.ofRecords records).byRegion records Record.regionCategory
        (Region.known.map Region.name) ∧
      (∀ type : JobType,
        Holds (Buckets.ofRecords records).byType type.name (ofJobType type records)) ∧
      (∀ region : Region, region ≠ .unknown →
        Holds (Buckets.ofRecords records).byRegion region.name (ofRegion region records)) ∧
      ((∀ r ∈ records, Categorized r) →
        Keyed.find? otherBucket (Buckets.ofRecords records).byType = none ∧
          Holds (Buckets.ofRecords records).byRegion otherBucket (ofRegion .unknown records) ∧
          remoteOnly records = records.filter fun r =>
            r.jobCategory == some JobType.remote.name ||
              r.jobCategory == some JobType.freelance.name) := by
  have htypes : Grouped (Buckets.ofRecords records).byType records Record.jobCategory
      (JobType.all.map JobType.name) := grouped_bucketsBy (by decide) _ _
  have hregions : Grouped (Buckets.ofRecords records).byRegion records Record.regionCategory
      (Region.known.map Region.name) := grouped_bucketsBy (by decide) _ _
  refine ⟨htypes, hregions, fun type => ?_, fun region hregion => ?_, fun hall => ⟨?_, ?_, ?_⟩⟩
  · exact htypes.known _ (List.mem_map_of_mem type.mem_all)
  · exact hregions.known _ (List.mem_map_of_mem (Region.mem_known.mpr hregion))
  · have hnone : (records.filter fun r =>
        (JobType.all.map JobType.name).all fun name => r.jobCategory != some name) = [] := by
      rw [List.filter_eq_nil_iff]
      intro r hr
      rw [(hall r hr).not_all_ne]
      exact Bool.false_ne_true
    have hother := htypes.other
    rwa [Holds, hnone, if_pos rfl] at hother
  · have hother := hregions.other
    rwa [List.filter_congr fun r hr => (hall r hr).all_ne_iff] at hother
  · exact List.filter_congr fun r hr => (hall r hr).isRemote_iff

end

/-- A posting from a platform that another source had called something else, and one that may be done
anywhere. -/
theorem buckets_agree_with_filters_renamed :
    ∃ c, Categorizer.ofTables { freelancePlatforms := ["upwork"] } = .ok c ∧
      ∀ records, records =
          [c.categorize { title := "a", source := "Upwork", jobCategory := some "contract" },
            c.categorize { title := "b", location := "Global" }] →
      Keyed.find? otherBucket (Buckets.ofRecords records).byType = none ∧
        (remoteOnly records).map Record.title = ["a"] ∧
        Holds (Buckets.ofRecords records).byRegion "global" (ofRegion .global records) := by
  have hc : Categorizer.ofTables { freelancePlatforms := ["upwork"] } = .ok _ := rfl
  refine ⟨_, hc, fun records hrecords => ?_⟩
  have hall : ∀ r ∈ records, Categorized r := by
    subst hrecords
    exact List.forall_mem_cons.mpr ⟨⟨_, _, _, hc, rfl⟩,
      List.forall_mem_singleton.mpr ⟨_, _, _, hc, rfl⟩⟩
  obtain ⟨-, -, -, hregion, hflags⟩ := buckets_agree_with_filters records
  obtain ⟨hnone, -, hremote⟩ := hflags hall
  refine ⟨hnone, ?_, hregion .global (by decide)⟩
  rw [hremote, hrecords]
  decide +kernel

end Shortlist
