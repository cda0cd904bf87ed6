import Mathlib.Data.String.Basic
import Shortlist.Headers
import Shortlist.Proofs.Keyed

/-!
# Replacing the headers of a browser

Which headers a request has after its browser was replaced, told name by name.  The names that belong to
a browser are removed in any case of their letters, and those of the new browser are set; a name is one
of the new ones only if it is among the removed ones, so that nothing else is touched
(`mem_managed_of_mem_full`).  Hence the headers that were there before are found again if they belong to
no browser, and have no influence at all otherwise.

The headers of the result are those of the new browser and, beside them, what belongs to no browser
(`apply_perm`), in any list of headers, whether it is sorted or not.  So of several browsers that a
request got one after another only the last one can be seen (`apply_apply`), and what can be seen of it
is one header for each name that it sends (`names_full_perm`): two spellings of one name never stand side
by side, as the names that belong to a browser differ in more than their case.
-/

namespace Shortlist.Headers

open Keyed (find? Sorted)

/-! ## 1. Names -/

/-- A name of the list belongs to the browser as it stands there. -/
theorem isManaged_of_mem {name : String} (h : name ∈ managed) : isManaged name = true := by
  refine List.any_eq_true.mpr ⟨name, h, ?_⟩
  rw [Text.sameIgnoringCase]
  exact beq_self_eq_true _

/-- The names that every browser sends. -/
def commonNames : List String :=
  ["User-Agent", "Accept", "Accept-Language", "DNT", "Upgrade-Insecure-Requests"]

/-- The names that only a browser with client hints sends. -/
def hintNames : List String :=
  ["Sec-CH-UA", "Sec-CH-UA-Mobile", "Sec-CH-UA-Platform", "Sec-Fetch-Dest", "Sec-Fetch-Mode",
    "Sec-Fetch-Site"]

/-- The names that a user agent sends. -/
def namesOf (agent : String) : List String :=
  commonNames ++
    if Browser.ofAgent agent = .chrome ∨ Browser.ofAgent agent = .edge then hintNames else []

/-- The names that are removed are those that some browser sends. -/
theorem managed_eq : managed = commonNames ++ hintNames := rfl

/-- **Names that belong to a browser differ in more than their case.** -/
theorem eq_of_managed : ∀ name ∈ managed, ∀ other ∈ managed,
    Text.sameIgnoringCase name other = true → name = other := by
  decide +kernel

theorem namesOf_sublist_managed (agent : String) : (namesOf agent).Sublist managed := by
  rw [managed_eq, namesOf]
  refine (List.Sublist.refl commonNames).append ?_
  split
  · exact List.Sublist.refl hintNames
  · exact List.nil_sublist hintNames

theorem nodup_namesOf (agent : String) : (namesOf agent).Nodup := by
  have hmanaged : managed.Nodup := by decide +kernel
  exact hmanaged.sublist (namesOf_sublist_managed agent)

/-- Chrome and Edge send client hints. -/
theorem names_hints (agent : String) : (hints agent).map Prod.fst =
    if Browser.ofAgent agent = .chrome ∨ Browser.ofAgent agent = .edge then hintNames else [] := by
  rw [hints]
  cases Browser.ofAgent agent with
  | chrome => rfl
  | edge => rfl
  | firefox => rfl
  | safari => rfl

/-- **A user agent sends each of its names once.** -/
theorem names_full_perm (agent : String) : ((full agent).map Prod.fst).Perm (namesOf agent) := by
  have hnames : (("User-Agent", agent) :: (common ++ hints agent)).map Prod.fst = namesOf agent := by
    rw [List.map_cons, List.map_append, names_hints]
    rfl
  have hnodup := nodup_namesOf agent
  rw [← hnames] at hnodup ⊢
  obtain ⟨hagent, hrest⟩ := List.nodup_cons.mp hnodup
  have hmatching : (matching agent).Perm (common ++ hints agent) := by
    have hperm := Keyed.insertAll_perm (m := []) hrest fun _ _ => List.not_mem_nil
    rwa [List.append_nil] at hperm
  have hnew : "User-Agent" ∉ (matching agent).map Prod.fst := fun h =>
    hagent ((hmatching.map Prod.fst).mem_iff.mp h)
  exact ((Keyed.insert_perm hnew).trans (hmatching.cons _)).map Prod.fst

/-- **Whatever is set is removed before**: every header of a browser has one of the names that belong
to a browser. -/
theorem mem_managed_of_mem_full {agent : String} {p : String × String} (h : p ∈ full agent) :
    p.1 ∈ managed :=
  (namesOf_sublist_managed agent).subset ((names_full_perm agent).mem_iff.mp (List.mem_map_of_mem h))

theorem isManaged_of_mem_full {agent : String} {p : String × String} (h : p ∈ full agent) :
    isManaged p.1 = true :=
  isManaged_of_mem (mem_managed_of_mem_full h)

/-! ## 2. Headers by their names -/

theorem sorted_matching (agent : String) : Sorted (matching agent) :=
  Sorted.insertAll List.Pairwise.nil _

theorem sorted_full (agent : String) : Sorted (full agent) := (sorted_matching agent).insert _ _

/-- The headers of a user agent are the matching ones and the user agent itself. -/
theorem find?_full (agent name : String) :
    find? name (full agent) = if name = "User-Agent" then some agent else find? name (matching agent) :=
  Keyed.find?_insert name _ _ _

/-- A browser sets no header under another spelling of its name. -/
theorem find?_full_of_not_mem {agent name : String} (h : name ∉ managed) :
    find? name (full agent) = none := by
  refine Keyed.find?_eq_none ?_
  rintro p hp rfl
  exact h (mem_managed_of_mem_full hp)

/-- **Replacing the browser, name by name**: a name that belongs to a browser finds what the new browser
sends, any other name what it found before. -/
theorem find?_apply (agent : String) (headers : Keyed String) (name : String) :
    find? name (apply agent headers) =
      if isManaged name then find? name (full agent) else find? name headers := by
  rw [apply, Keyed.find?_insertAll, (sorted_full agent).find?_reverse, Keyed.find?_keep]
  cases hmanaged : isManaged name with
  | true => simp
  | false =>
    have hnew : name ∉ managed := by
      intro hmem
      rw [isManaged_of_mem hmem] at hmanaged
      cases hmanaged
    simp [find?_full_of_not_mem hnew]

/-! ## 3. User agents -/

/-- There is always a user agent to choose. -/
theorem Rotator.ofList_ne_nil (agents : List String) : (Rotator.ofList agents).agents ≠ [] := by
  rw [ofList]
  split
  · simp [builtinAgents]
  · rename_i hempty
    exact fun hnil => hempty (List.isEmpty_iff.mpr hnil)

/-- **A chosen user agent is one of the list.** -/
theorem Rotator.choose_mem (r : Rotator) (h : r.agents ≠ []) (draw : Nat) : r.choose draw ∈ r.agents := by
  have hpos : 0 < r.agents.length := List.length_pos_iff.mpr h
  rw [choose, List.getElem?_eq_getElem (Nat.mod_lt draw hpos), Option.getD_some]
  exact List.getElem_mem _

/-- Of a single user agent there is nothing to choose. -/
theorem Rotator.choose_ofList_singleton (agent : String) (draw : Nat) :
    (Rotator.ofList [agent]).choose draw = agent := by
  simp [ofList, choose, Nat.mod_one]

/-! ## 4. What is set and what is left -/

/-- **Replacing the browser** sets the headers of the new one beside those that belong to no browser. -/
theorem apply_perm (agent : String) (headers : Keyed String) :
    (apply agent headers).Perm (full agent ++ Keyed.keep (!isManaged ·) headers) := by
  refine Keyed.insertAll_perm ((names_full_perm agent).nodup_iff.mpr (nodup_namesOf agent)) ?_
  intro p hp hmem
  obtain ⟨q, hq, heq⟩ := List.mem_map.mp hmem
  have hother : (!isManaged q.1) = true := (List.mem_filter.mp hq).2
  rw [heq, isManaged_of_mem_full hp] at hother
  cases hother

/-- **What belongs to a browser** is what the new browser sends. -/
theorem keep_isManaged_apply (agent : String) (headers : Keyed String) :
    (Keyed.keep isManaged (apply agent headers)).Perm (full agent) := by
  have hfull : (full agent).filter (isManaged ·.1) = full agent :=
    List.filter_eq_self.mpr fun _ hp => isManaged_of_mem_full hp
  have hothers : (Keyed.keep (!isManaged ·) headers).filter (isManaged ·.1) = [] := by
    simp [Keyed.keep, List.filter_filter]
  have hkept := (apply_perm agent headers).filter (isManaged ·.1)
  rwa [List.filter_append, hfull, hothers, List.append_nil] at hkept

/-- **What belongs to no browser** stays as it is. -/
theorem keep_not_isManaged_apply (agent : String) (headers : Keyed String) :
    Keyed.keep (!isManaged ·) (apply agent headers) = Keyed.keep (!isManaged ·) headers := by
  have hsent : ∀ p ∈ full agent, (!isManaged p.1) = false := fun p hp => by
    rw [isManaged_of_mem_full hp]
    rfl
  rw [apply, Keyed.keep_insertAll_of_not hsent]
  simp [Keyed.keep, List.filter_filter]

/-! ## 5. One browser after another -/

/-- **Only the last browser can be seen.** -/
theorem apply_apply (earlier later : String) (headers : Keyed String) :
    apply later (apply earlier headers) = apply later headers := by
  rw [apply, keep_not_isManaged_apply, apply]

/-- No name of a browser is there twice, not even in two spellings. -/
theorem pairwise_names_apply (agent : String) (headers : Keyed String) :
    ((Keyed.keep isManaged (apply agent headers)).map Prod.fst).Pairwise
      fun a b => Text.sameIgnoringCase a b = false := by
  have hperm := ((keep_isManaged_apply agent headers).map Prod.fst).trans (names_full_perm agent)
  refine (hperm.nodup_iff.mpr (nodup_namesOf agent)).imp_of_mem fun {a b} ha hb hne => ?_
  have hmanaged : ∀ name ∈ (Keyed.keep isManaged (apply agent headers)).map Prod.fst, name ∈ managed :=
    fun name hname => (namesOf_sublist_managed agent).subset (hperm.mem_iff.mp hname)
  exact Bool.eq_false_iff.mpr fun hsame =>
    hne (eq_of_managed a (hmanaged a ha) b (hmanaged b hb) hsame)

/-- A name that belongs to a browser is there if the new browser sends it. -/
theorem mem_names_apply_iff {agent name : String} {headers : Keyed String}
    (h : isManaged name = true) :
    name ∈ (apply agent headers).map Prod.fst ↔ name ∈ namesOf agent := by
  rw [← (names_full_perm agent).mem_iff]
  constructor
  · intro hname
    obtain ⟨p, hp, rfl⟩ := List.mem_map.mp hname
    have hkept : p ∈ Keyed.keep isManaged (apply agent headers) := List.mem_filter.mpr ⟨hp, h⟩
    exact List.mem_map_of_mem ((keep_isManaged_apply agent headers).mem_iff.mp hkept)
  · intro hname
    obtain ⟨p, hp, rfl⟩ := List.mem_map.mp hname
    exact List.mem_map_of_mem ((apply_perm agent headers).mem_iff.mpr (List.mem_append_left _ hp))

/-- **Client hints** are there in their own spelling, and only those of Chrome and Edge. -/
theorem mem_names_apply_hint_iff {agent name spelling : String} (hname : name ∈ hintNames)
    (hsame : Text.sameIgnoringCase name spelling = true) (headers : Keyed String) :
    spelling ∈ (apply agent headers).map Prod.fst ↔
      spelling = name ∧ (Browser.ofAgent agent = .chrome ∨ Browser.ofAgent agent = .edge) := by
  have hmanaged : name ∈ managed := by
    rw [managed_eq]
    exact List.mem_append_right _ hname
  have hcommon : ∀ name ∈ hintNames, name ∉ commonNames := by decide +kernel
  rw [mem_names_apply_iff (List.any_eq_true.mpr ⟨name, hmanaged, hsame⟩)]
  constructor
  · intro hsent
    have heq := eq_of_managed name hmanaged spelling ((namesOf_sublist_managed agent).subset hsent) hsame
    subst heq
    refine ⟨rfl, ?_⟩
    rcases List.mem_append.mp hsent with hsent | hsent
    · exact absurd hsent (hcommon name hname)
    · split at hsent
      · rename_i hbrowser
        exact hbrowser
      · cases hsent
  · rintro ⟨rfl, hbrowser⟩
    rw [namesOf, if_pos hbrowser]
    exact List.mem_append_right _ hname

/-- **Rotating the headers forgets the past.**  Two rotators of one user agent each are applied to any
headers, in whatever spelling their names are written.  The result of the second is the same without the
first, and applied once more it changes nothing.  No two names that belong to a browser are then the same
but for their case.  A client hint, or one of the three `Sec-Fetch` headers that go with it, is there
exactly when the second user agent is that of Chrome or Edge, and in no other spelling.  The headers that
belong to no browser (a `Sec-Fetch-User` of the caller is one of them) are those that were there. -/
theorem rotation_absorbs_past (earlier later : String) (headers : Keyed String)
    (draw₁ draw₂ draw₃ : Nat) :
    let first := (Rotator.ofList [earlier]).choose draw₁
    let second := (Rotator.ofList [later]).choose draw₂
    let again := (Rotator.ofList [later]).choose draw₃
    let rotated := apply second headers
    apply again (apply first headers) = rotated ∧
      apply again rotated = rotated ∧
      (((Keyed.keep isManaged rotated).map Prod.fst).Pairwise
        fun a b => Text.sameIgnoringCase a b = false) ∧
      (∀ name ∈ hintNames, ∀ spelling, Text.sameIgnoringCase name spelling = true →
        (spelling ∈ rotated.map Prod.fst ↔ spelling = name ∧
          (Browser.ofAgent later = .chrome ∨ Browser.ofAgent later = .edge))) ∧
      Keyed.keep (!isManaged ·) rotated = Keyed.keep (!isManaged ·) headers := by
  intro first second again rotated
  have hsecond : second = later := Rotator.choose_ofList_singleton later draw₂
  have hagain : again = second := by
    rw [hsecond]
    exact Rotator.choose_ofList_singleton later draw₃
  rw [hagain]
  refine ⟨apply_apply first second headers, apply_apply second second headers,
    pairwise_names_apply second headers, ?_, keep_not_isManaged_apply second headers⟩
  intro name hname spelling hsame
  rw [← hsecond]
  exact mem_names_apply_hint_iff hname hsame headers

/-- A hint in small letters and a header of Chrome in capitals are gone once the request looks like
Firefox, and so is all that Chrome had set meanwhile. -/
theorem rotation_absorbs_past_firefox :
    let headers : Keyed String :=
      [("Referer", "https://jobs.example.com"), ("SEC-FETCH-MODE", "cors"), ("sec-ch-ua", "old")]
    let first := (Rotator.ofList ["Chrome/121 (Windows)"]).choose 4
    let second := (Rotator.ofList ["Firefox/122"]).choose 7
    let again := (Rotator.ofList ["Firefox/122"]).choose 10
    (apply first headers).map Prod.fst =
        ["Accept", "Accept-Language", "DNT", "Referer", "Sec-CH-UA", "Sec-CH-UA-Mobile",
          "Sec-CH-UA-Platform", "Sec-Fetch-Dest", "Sec-Fetch-Mode", "Sec-Fetch-Site",
          "Upgrade-Insecure-Requests", "User-Agent"] ∧
      apply again (apply first headers) = apply second headers ∧
      "SEC-FETCH-MODE" ∉ (apply second headers).map Prod.fst ∧
      (apply second headers).map Prod.fst =
        ["Accept", "Accept-Language", "DNT", "Referer", "Upgrade-Insecure-Requests", "User-Agent"] := by
  intro headers first second again
  obtain ⟨habsorbed, -, -, hhints, -⟩ :=
    rotation_absorbs_past "Chrome/121 (Windows)" "Firefox/122" headers 4 7 10
  refine ⟨by decide +kernel, habsorbed, fun hmem => ?_, by decide +kernel⟩
  have hspelled := (hhints "Sec-Fetch-Mode" (by decide) "SEC-FETCH-MODE" (by decide)).mp hmem
  exact absurd hspelled.1 (by decide)

end Shortlist.Headers
