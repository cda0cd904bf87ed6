import Mathlib.Data.List.Nodup
import Shortlist.Proofs.Record.Codec

/-!
# The normal form of an object

Reading an object as a record and writing the record as an object again gives the object in its normal
form: a plain text that was absent is there and empty, an optional field that was null is absent, and
every other member is what it was.  Which of its fields a key belongs to decides this, so the normal form
is given key by key (`Settles`), and so is the condition under which an object describes a record at all
(`DescribesRecord`).

Each reader of a field is characterized by one equivalence, which says what the field is written back as.
Acceptance, the normal form and the way back all follow from these.
-/

namespace Shortlist.Record

open Json (Value Numeral)

/-! ## 1. Keys -/

/-- The keys of the plain texts that may be absent. -/
def defaultedKeys : List String := ["company", "location", "type", "link", "source"]

/-- The keys of the texts that may be absent or null. -/
def optionalTextKeys : List String :=
  ["description", "budget", "salary", "date_posted", "keyword_searched", "region", "job_category",
    "job_category_icon", "region_category", "region_icon"]

/-- The keys of all fields that may be absent or null. -/
def optionalKeys : List String := optionalTextKeys ++ ["relevance_score", "is_remote"]

/-- The members of an object are those of a record: no field holds anything that it cannot hold. -/
structure DescribesRecord (o : Keyed Value) : Prop where
  title : ∃ s, Keyed.find? "title" o = some (.string s)
  defaulted : ∀ key ∈ defaultedKeys, ∀ v ∈ Keyed.find? key o, ∃ s, v = .string s
  optional : ∀ key ∈ optionalTextKeys, ∀ v ∈ Keyed.find? key o, v = .null ∨ ∃ s, v = .string s
  score : ∀ v ∈ Keyed.find? "relevance_score" o,
    v = .null ∨ ∃ n : Int, 0 ≤ n ∧ n ≤ 255 ∧ v = .number (.integer n)
  flag : ∀ v ∈ Keyed.find? "is_remote" o, v = .null ∨ ∃ b, v = .bool b

/-- The value, unless it is null. -/
def unlessNull : Option Value → Option Value
  | some .null => none
  | v => v

theorem unlessNull_some {v : Value} (h : v ≠ .null) : unlessNull (some v) = some v := by
  cases v with
  | null => exact absurd rfl h
  | _ => rfl

/-- What the value of a key becomes: a plain text that was absent is empty, and null is left out where it
means that a field is unset. -/
def settled (key : String) (v : Option Value) : Option Value :=
  if key ∈ defaultedKeys then some (v.getD (.string ""))
  else if key ∈ optionalKeys then unlessNull v
  else v

/-- A key without a field of its own keeps its value. -/
theorem settled_of_notMem {key : String} (h : key ∉ fixedKeys) (v : Option Value) :
    settled key v = v := by
  have hdefaulted : defaultedKeys ⊆ fixedKeys := by decide
  have hoptional : optionalKeys ⊆ fixedKeys := by decide
  rw [settled, if_neg fun hkey => h (hdefaulted hkey), if_neg fun hkey => h (hoptional hkey)]

/-- The second object is the normal form of the first one. -/
structure Settles (o o' : Keyed Value) : Prop where
  sorted : Keyed.Sorted o'
  find? : ∀ key, Keyed.find? key o' = settled key (Keyed.find? key o)

/-! ## 2. Fields -/

/-- A required text is read where it is written. -/
theorem requiredText?_eq_some_iff {v : Option Value} {s : String} :
    requiredText? v = some s ↔ v = some (.string s) := by
  cases v with
  | none => simp [requiredText?]
  | some v => cases v <;> simp [requiredText?]

/-- A plain text is read where it is written, and is empty where nothing is written. -/
theorem plainText?_eq_some_iff {v : Option Value} {s : String} :
    plainText? v = some s ↔ v.getD (.string "") = .string s := by
  cases v with
  | none => simp [plainText?]
  | some v => cases v <;> simp [plainText?]

/-- An optional text is read where it is written, null apart. -/
theorem optionalText?_eq_some_iff {v : Option Value} {o : Option String} :
    optionalText? v = some o ↔ unlessNull v = o.map .string := by
  cases v with
  | none => cases o <;> simp [optionalText?, unlessNull]
  | some v => cases v <;> cases o <;> simp [optionalText?, unlessNull]

/-- An optional flag is read where it is written, null apart. -/
theorem optionalFlag?_eq_some_iff {v : Option Value} {o : Option Bool} :
    optionalFlag? v = some o ↔ unlessNull v = o.map .bool := by
  cases v with
  | none => cases o <;> simp [optionalFlag?, unlessNull]
  | some v => cases v <;> cases o <;> simp [optionalFlag?, unlessNull]

/-- An integer is read as a score where the score is written as that integer. -/
theorem byte_eq_iff {n : Int} {b : UInt8} :
    (0 ≤ n ∧ n ≤ 255) ∧ UInt8.ofNat n.toNat = b ↔ n = b.toNat := by
  have hb := b.toNat_lt
  constructor
  · rintro ⟨hrange, rfl⟩
    have hn : n.toNat < 256 := by omega
    rw [UInt8.toNat_ofNat_of_lt' hn]
    omega
  · rintro rfl
    rw [Int.toNat_natCast, UInt8.ofNat_toNat]
    exact ⟨by omega, rfl⟩

/-- An optional score is read where it is written, null apart. -/
theorem optionalScore?_eq_some_iff {v : Option Value} {o : Option UInt8} :
    optionalScore? v = some o ↔ unlessNull v = o.map fun n => .number (.integer n.toNat) := by
  cases v with
  | none => cases o <;> simp [optionalScore?, unlessNull]
  | some v =>
    cases v with
    | number numeral =>
      cases numeral with
      | integer n => cases o <;> simp [optionalScore?, unlessNull, byte_eq_iff]
      | real d => cases o <;> simp [optionalScore?, unlessNull]
    | _ => cases o <;> simp [optionalScore?, unlessNull]

variable {α : Type} {v : Option Value} {write : α → Value}

/-- What a plain text can be read from. -/
theorem exists_plain_iff :
    (∃ s, v.getD (.string "") = .string s) ↔ ∀ w ∈ v, ∃ s, w = .string s := by
  cases v with
  | none => simp
  | some w => simp

/-- What an optional field can be read from. -/
theorem exists_optional_iff (hwrite : ∀ a, write a ≠ .null) :
    (∃ o : Option α, unlessNull v = o.map write) ↔ ∀ w ∈ v, w = .null ∨ ∃ a, w = write a := by
  constructor
  · rintro ⟨o, ho⟩ w hw
    obtain rfl : v = some w := hw
    by_cases hnull : w = .null
    · exact Or.inl hnull
    · rw [unlessNull_some hnull] at ho
      obtain ⟨a, -, ha⟩ := Option.map_eq_some_iff.mp ho.symm
      exact Or.inr ⟨a, ha.symm⟩
  · intro h
    cases v with
    | none => exact ⟨none, rfl⟩
    | some w =>
      rcases h w rfl with rfl | ⟨a, rfl⟩
      · exact ⟨none, rfl⟩
      · exact ⟨some a, unlessNull_some (hwrite a)⟩

/-! ## 3. Reading all fields -/

/-- The record is what is read of the members of an object: each of its fields is written back as it was,
defaults and null apart. -/
structure ReadFrom (o : Keyed Value) (r : Record) : Prop where
  title : Keyed.find? "title" o = some (.string r.title)
  company : (Keyed.find? "company" o).getD (.string "") = .string r.company
  location : (Keyed.find? "location" o).getD (.string "") = .string r.location
  jobType : (Keyed.find? "type" o).getD (.string "") = .string r.jobType
  link : (Keyed.find? "link" o).getD (.string "") = .string r.link
  source : (Keyed.find? "source" o).getD (.string "") = .string r.source
  description : unlessNull (Keyed.find? "description" o) = r.description.map .string
  budget : unlessNull (Keyed.find? "budget" o) = r.budget.map .string
  salary : unlessNull (Keyed.find? "salary" o) = r.salary.map .string
  datePosted : unlessNull (Keyed.find? "date_posted" o) = r.datePosted.map .string
  keywordSearched : unlessNull (Keyed.find? "keyword_searched" o) = r.keywordSearched.map .string
  region : unlessNull (Keyed.find? "region" o) = r.region.map .string
  relevanceScore : unlessNull (Keyed.find? "relevance_score" o) =
    r.relevanceScore.map fun n => .number (.integer n.toNat)
  jobCategory : unlessNull (Keyed.find? "job_category" o) = r.jobCategory.map .string
  jobCategoryIcon : unlessNull (Keyed.find? "job_category_icon" o) = r.jobCategoryIcon.map .string
  regionCategory : unlessNull (Keyed.find? "region_category" o) = r.regionCategory.map .string
  regionIcon : unlessNull (Keyed.find? "region_icon" o) = r.regionIcon.map .string
  isRemote : unlessNull (Keyed.find? "is_remote" o) = r.isRemote.map .bool
  extras : r.extras = Keyed.keep (fun key => !fixedKeys.contains key) o

/-- **Reading an object** gives the record that is read from it, and none if there is no such record. -/
theorem ofMembers?_eq_some_iff {o : Keyed Value} {r : Record} :
    ofMembers? o = some r ↔ ReadFrom o r := by
  constructor
  · intro h
    rw [ofMembers?] at h
    obtain ⟨title, htitle, h⟩ := Option.bind_eq_some_iff.mp h
    obtain ⟨company, hcompany, h⟩ := Option.bind_eq_some_iff.mp h
    obtain ⟨location, hlocation, h⟩ := Option.bind_eq_some_iff.mp h
    obtain ⟨jobType, hjobType, h⟩ := Option.bind_eq_some_iff.mp h
    obtain ⟨link, hlink, h⟩ := Option.bind_eq_some_iff.mp h
    obtain ⟨source, hsource, h⟩ := Option.bind_eq_some_iff.mp h
    obtain ⟨description, hdescription, h⟩ := Option.bind_eq_some_iff.mp h
    obtain ⟨budget, hbudget, h⟩ := Option.bind_eq_some_iff.mp h
    obtain ⟨salary, hsalary, h⟩ := Option.bind_eq_some_iff.mp h
    obtain ⟨datePosted, hdatePosted, h⟩ := Option.bind_eq_some_iff.mp h
    obtain ⟨keywordSearched, hkeywordSearched, h⟩ := Option.bind_eq_some_iff.mp h
    obtain ⟨region, hregion, h⟩ := Option.bind_eq_some_iff.mp h
    obtain ⟨relevanceScore, hrelevanceScore, h⟩ := Option.bind_eq_some_iff.mp h
    obtain ⟨jobCategory, hjobCategory, h⟩ := Option.bind_eq_some_iff.mp h
    obtain ⟨jobCategoryIcon, hjobCategoryIcon, h⟩ := Option.bind_eq_some_iff.mp h
    obtain ⟨regionCategory, hregionCategory, h⟩ := Option.bind_eq_some_iff.mp h
    obtain ⟨regionIcon, hregionIcon, h⟩ := Option.bind_eq_some_iff.mp h
    obtain ⟨isRemote, hisRemote, h⟩ := Option.bind_eq_some_iff.mp h
    cases h
    exact
      { title := requiredText?_eq_some_iff.mp htitle
        company := plainText?_eq_some_iff.mp hcompany
        location := plainText?_eq_some_iff.mp hlocation
        jobType := plainText?_eq_some_iff.mp hjobType
        link := plainText?_eq_some_iff.mp hlink
        source := plainText?_eq_some_iff.mp hsource
        description := optionalText?_eq_some_iff.mp hdescription
        budget := optionalText?_eq_some_iff.mp hbudget
        salary := optionalText?_eq_some_iff.mp hsalary
        datePosted := optionalText?_eq_some_iff.mp hdatePosted
        keywordSearched := optionalText?_eq_some_iff.mp hkeywordSearched
        region := optionalText?_eq_some_iff.mp hregion
        relevanceScore := optionalScore?_eq_some_iff.mp hrelevanceScore
        jobCategory := optionalText?_eq_some_iff.mp hjobCategory
        jobCategoryIcon := optionalText?_eq_some_iff.mp hjobCategoryIcon
        regionCategory := optionalText?_eq_some_iff.mp hregionCategory
        regionIcon := optionalText?_eq_some_iff.mp hregionIcon
        isRemote := optionalFlag?_eq_some_iff.mp hisRemote
        extras := rfl }
  · intro h
    rw [ofMembers?]
    simp only [requiredText?_eq_some_iff.mpr h.title, plainText?_eq_some_iff.mpr h.company,
      plainText?_eq_some_iff.mpr h.location, plainText?_eq_some_iff.mpr h.jobType,
      plainText?_eq_some_iff.mpr h.link, plainText?_eq_some_iff.mpr h.source,
      optionalText?_eq_some_iff.mpr h.description, optionalText?_eq_some_iff.mpr h.budget,
      optionalText?_eq_some_iff.mpr h.salary, optionalText?_eq_some_iff.mpr h.datePosted,
      optionalText?_eq_some_iff.mpr h.keywordSearched, optionalText?_eq_some_iff.mpr h.region,
      optionalScore?_eq_some_iff.mpr h.relevanceScore, optionalText?_eq_some_iff.mpr h.jobCategory,
      optionalText?_eq_some_iff.mpr h.jobCategoryIcon, optionalText?_eq_some_iff.mpr h.regionCategory,
      optionalText?_eq_some_iff.mpr h.regionIcon, optionalFlag?_eq_some_iff.mpr h.isRemote, ← h.extras]
    rfl

/-- The integers from 0 to 255 are those that a score is written as. -/
theorem exists_byte_iff {w : Value} :
    (∃ n : UInt8, w = .number (.integer n.toNat)) ↔
      ∃ n : Int, 0 ≤ n ∧ n ≤ 255 ∧ w = .number (.integer n) := by
  constructor
  · rintro ⟨b, rfl⟩
    obtain ⟨⟨hlo, hhi⟩, -⟩ := byte_eq_iff.mpr (rfl : (b.toNat : Int) = b.toNat)
    exact ⟨b.toNat, hlo, hhi, rfl⟩
  · rintro ⟨n, hlo, hhi, rfl⟩
    exact ⟨UInt8.ofNat n.toNat, by rw [← byte_eq_iff.mp ⟨⟨hlo, hhi⟩, rfl⟩]⟩

/-- **An object describes a record** exactly when none of its fields holds what it cannot hold. -/
theorem exists_readFrom_iff {o : Keyed Value} : (∃ r, ReadFrom o r) ↔ DescribesRecord o := by
  have htext : ∀ s, Value.string s ≠ .null := fun _ h => by cases h
  have hflag : ∀ b, Value.bool b ≠ .null := fun _ h => by cases h
  have hscore : ∀ n : UInt8, Value.number (.integer n.toNat) ≠ .null := fun _ h => by cases h
  constructor
  · rintro ⟨r, h⟩
    refine ⟨⟨_, h.title⟩, ?_, ?_, ?_, (exists_optional_iff hflag).mp ⟨_, h.isRemote⟩⟩
    · simp only [defaultedKeys, List.forall_mem_cons, ← exists_plain_iff]
      exact ⟨⟨_, h.company⟩, ⟨_, h.location⟩, ⟨_, h.jobType⟩, ⟨_, h.link⟩, ⟨_, h.source⟩, by simp⟩
    · simp only [optionalTextKeys, List.forall_mem_cons, ← exists_optional_iff htext]
      exact ⟨⟨_, h.description⟩, ⟨_, h.budget⟩, ⟨_, h.salary⟩, ⟨_, h.datePosted⟩,
        ⟨_, h.keywordSearched⟩, ⟨_, h.region⟩, ⟨_, h.jobCategory⟩, ⟨_, h.jobCategoryIcon⟩,
        ⟨_, h.regionCategory⟩, ⟨_, h.regionIcon⟩, by simp⟩
    · simp only [← exists_byte_iff, ← exists_optional_iff hscore]
      exact ⟨_, h.relevanceScore⟩
  · rintro ⟨⟨title, htitle⟩, hdefaulted, hoptional, hbyte, hbool⟩
    simp only [defaultedKeys, List.forall_mem_cons, ← exists_plain_iff] at hdefaulted
    simp only [optionalTextKeys, List.forall_mem_cons, ← exists_optional_iff htext] at hoptional
    simp only [← exists_byte_iff, ← exists_optional_iff hscore] at hbyte
    rw [← exists_optional_iff hflag] at hbool
    obtain ⟨⟨company, hcompany⟩, ⟨location, hlocation⟩, ⟨jobType, hjobType⟩, ⟨link, hlink⟩,
      ⟨source, hsource⟩, -⟩ := hdefaulted
    obtain ⟨⟨description, hdescription⟩, ⟨budget, hbudget⟩, ⟨salary, hsalary⟩,
      ⟨datePosted, hdatePosted⟩, ⟨keywordSearched, hkeywordSearched⟩, ⟨region, hregion⟩,
      ⟨jobCategory, hjobCategory⟩, ⟨jobCategoryIcon, hjobCategoryIcon⟩,
      ⟨regionCategory, hregionCategory⟩, ⟨regionIcon, hregionIcon⟩, -⟩ := hoptional
    obtain ⟨relevanceScore, hrelevanceScore⟩ := hbyte
    obtain ⟨isRemote, hisRemote⟩ := hbool
    exact ⟨⟨title, company, location, jobType, link, source, description, budget, salary, datePosted,
      keywordSearched, region, relevanceScore, jobCategory, jobCategoryIcon, regionCategory,
      regionIcon, isRemote, _⟩, htitle, hcompany, hlocation, hjobType, hlink, hsource, hdescription,
      hbudget, hsalary, hdatePosted, hkeywordSearched, hregion, hrelevanceScore, hjobCategory,
      hjobCategoryIcon, hregionCategory, hregionIcon, hisRemote, rfl⟩

/-! ## 4. Writing -/

namespace ReadFrom

variable {o : Keyed Value} {r : Record}

/-- The extras are the members without a field of their own. -/
theorem mem_extras_iff (h : ReadFrom o r) {p : String × Value} :
    p ∈ r.extras ↔ p ∈ o ∧ p.1 ∉ fixedKeys := by
  rw [h.extras, Keyed.keep, List.mem_filter]
  simp

/-- The extras of a record that was read are in order. -/
theorem tidyExtras (h : ReadFrom o r) (ho : Keyed.Sorted o) : r.TidyExtras := by
  refine ⟨?_, fun p hp => (h.mem_extras_iff.mp hp).2⟩
  rw [h.extras]
  exact List.Pairwise.filter _ ho

/-- **The members of the fixed fields** are those of the normal form. -/
theorem find?_fixedMembers (h : ReadFrom o r) :
    ∀ key ∈ fixedKeys, Keyed.find? key r.fixedMembers.reverse = settled key (Keyed.find? key o) := by
  intro key hkey
  obtain ⟨title, company, location, jobType, link, source, description, budget, salary, datePosted,
    keywordSearched, region, relevanceScore, jobCategory, jobCategoryIcon, regionCategory, regionIcon,
    isRemote, -⟩ := h
  simp only [fixedKeys, List.mem_cons, List.not_mem_nil, or_false] at hkey
  rcases hkey with rfl | rfl | rfl | rfl | rfl | rfl | rfl | rfl | rfl | rfl | rfl | rfl | rfl | rfl |
    rfl | rfl | rfl | rfl
  all_goals
    simp [fixedMembers, reverse_setMember, Keyed.find?_append, find?_setMember, Keyed.find?, settled,
      defaultedKeys, optionalKeys, optionalTextKeys, *]

/-- **A record that was read is written in normal form.** -/
theorem settles (h : ReadFrom o r) (ho : Keyed.Sorted o) :
    Settles o (Keyed.insertAll r.members []) := by
  have hextras := h.tidyExtras ho
  refine ⟨Keyed.Sorted.insertAll List.Pairwise.nil _, fun key => ?_⟩
  by_cases hkey : key ∈ fixedKeys
  · rw [find?_members hextras hkey, h.find?_fixedMembers key hkey]
  · -- a key without a field of its own finds among the extras what it finds among all members
    have hkept : ∀ m : Keyed Value,
        Keyed.find? key (Keyed.keep (fun key => !fixedKeys.contains key) m) = Keyed.find? key m :=
      fun m => by simp [Keyed.find?_keep, hkey]
    rw [← hkept, keep_members hextras, h.extras, hkept, settled_of_notMem hkey]

end ReadFrom

/-- An optional field is written under its own key, if at all. -/
theorem keys_setMember_sublist (key : String) (write : α → Value) (o : Option α) :
    ((setMember key write o).map Prod.fst).Sublist [key] := by
  cases o with
  | none => exact List.nil_sublist _
  | some a => exact List.Sublist.refl _

/-- The fixed fields are written in the order of their keys, some of them left out. -/
theorem keys_fixedMembers_sublist (r : Record) : (r.fixedMembers.map Prod.fst).Sublist fixedKeys := by
  have hkeys : fixedKeys = ["title", "company", "location", "type", "link", "source"] ++
      ["description"] ++ ["budget"] ++ ["salary"] ++ ["date_posted"] ++ ["keyword_searched"] ++
      ["region"] ++ ["relevance_score"] ++ ["job_category"] ++ ["job_category_icon"] ++
      ["region_category"] ++ ["region_icon"] ++ ["is_remote"] := rfl
  simp only [hkeys, fixedMembers, List.map_append]
  repeat' apply List.Sublist.append
  all_goals first | exact keys_setMember_sublist _ _ _ | exact List.Sublist.refl _

/-- **No key is written twice**, if the extras are in order. -/
theorem TidyExtras.nodup_keys {r : Record} (h : r.TidyExtras) : (r.members.map Prod.fst).Nodup := by
  have hfixed : fixedKeys.Nodup := by decide
  rw [members, List.map_append, List.nodup_append]
  refine ⟨hfixed.sublist (keys_fixedMembers_sublist r), ?_, ?_⟩
  · exact List.pairwise_map.mpr (h.sorted.imp ne_of_lt)
  · rintro _ hkey _ hextra rfl
    obtain ⟨p, hp, rfl⟩ := List.mem_map.mp hextra
    exact h.free p hp ((keys_fixedMembers_sublist r).subset hkey)

/-! ## 5. The normal form -/

/-- **Reading and writing settles an object.**  An object describes a record exactly when its title is a
text, the other plain texts are texts or absent, and the optional fields are of their kind, null or
absent.  Written again, the record is the object in its normal form, with no key in it twice, and is read
as the same record.  Its extras are the members without a field of their own, whatever their values. -/
theorem codec_normal_form {o : Keyed Value} (ho : Keyed.Sorted o) :
    ((∃ r, ofJson? (.object o) = some r) ↔ DescribesRecord o) ∧
      ∀ r, ofJson? (.object o) = some r →
        (∃ o', Settles o o' ∧ r.toJson = .object o') ∧
          (r.members.map Prod.fst).Nodup ∧
          ofJson? r.toJson = some r ∧
          ∀ p, p ∈ r.extras ↔ p ∈ o ∧ p.1 ∉ fixedKeys := by
  have hread : ∀ r, ofJson? (.object o) = some r ↔ ReadFrom o r := fun r => ofMembers?_eq_some_iff
  constructor
  · rw [← exists_readFrom_iff]
    exact exists_congr hread
  · intro r hr
    have hr := (hread r).mp hr
    have hextras := hr.tidyExtras ho
    exact ⟨⟨_, hr.settles ho, rfl⟩, hextras.nodup_keys, ofJson?_toJson hextras,
      fun p => hr.mem_extras_iff⟩

/-- No company, a budget that is null, and extras with null in them, one of them under a key that is
nearly that of a field. -/
def nullsPosting : Keyed Value :=
  [("budget", .null), ("followers", .number (.integer 1200)), ("job_type", .null),
    ("tags", .array [.null, .string " cgi "]), ("title", .string "3D Artist")]

/-- The company is written as an empty text and the budget not at all, and the other nulls are kept. -/
theorem codec_normal_form_nulls :
    ∃ r o', ofJson? (.object nullsPosting) = some r ∧ r.toJson = .object o' ∧ ofJson? r.toJson = some r ∧
      Keyed.find? "company" o' = some (.string "") ∧ Keyed.find? "budget" o' = none ∧
      Keyed.find? "job_type" o' = some .null ∧
      Keyed.find? "tags" o' = some (.array [.null, .string " cgi "]) := by
  have hsorted : Keyed.Sorted nullsPosting := by
    unfold Keyed.Sorted
    decide
  have hsome : (ofJson? (.object nullsPosting)).isSome = true := by decide
  obtain ⟨r, hr⟩ := Option.isSome_iff_exists.mp hsome
  obtain ⟨⟨o', hsettles, hjson⟩, -, hback, -⟩ := (codec_normal_form hsorted).2 r hr
  refine ⟨r, o', hr, hjson, hback, ?_, ?_, ?_, ?_⟩
  all_goals
    rw [hsettles.find?]
    decide

end Shortlist.Record
