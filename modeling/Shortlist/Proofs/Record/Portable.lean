import Shortlist.Proofs.Json.Printed
import Shortlist.Proofs.Json.Reading
import Shortlist.Proofs.Record.Cleaning
import Shortlist.Proofs.Record.NormalForm
import Shortlist.Proofs.Record.Stream

/-!
# Records that were read can be written

Any record that comes out of a record file has extras in order: sorted, with keys of their own, and
nested two levels less deep than the reader may go, as the record is an object inside of an array.
This is what the text of such a record needs to be accepted again.  Cleaning changes strings only, so
it changes nothing about that.

Numbers are apart: one that is no integer of 64 bits may be written in a form of its own, so that the
extras hold none is asked for wherever records are written.
-/

namespace Shortlist

/-! ## 1. Cleaning keeps the shape of a value -/

namespace Json.Value

variable (f : String → String)

/-- Keys stay, and so does their order. -/
theorem sorted_mapMemberStrings {ms : List (String × Value)} :
    Keyed.Sorted (mapMemberStrings f ms) ↔ Keyed.Sorted ms := by
  rw [mapMemberStrings_eq_map, Keyed.Sorted, List.pairwise_map, Keyed.Sorted]

mutual

/-- Changing strings leaves the nesting alone … -/
theorem levels_mapStrings : ∀ v : Value, (mapStrings f v).levels = v.levels
  | .array vs => by rw [mapStrings, levels, levels, itemsLevels_mapItemStrings vs]
  | .object ms => by rw [mapStrings, levels, levels, membersLevels_mapMemberStrings ms]
  | .string _ => by simp only [mapStrings, levels]
  | .null => by simp only [mapStrings]
  | .bool _ => by simp only [mapStrings]
  | .number _ => by simp only [mapStrings]

theorem itemsLevels_mapItemStrings :
    ∀ vs : List Value, itemsLevels (mapItemStrings f vs) = itemsLevels vs
  | [] => rfl
  | v :: vs => by
    rw [mapItemStrings, itemsLevels, itemsLevels, levels_mapStrings v, itemsLevels_mapItemStrings vs]

theorem membersLevels_mapMemberStrings :
    ∀ ms : List (String × Value), membersLevels (mapMemberStrings f ms) = membersLevels ms
  | [] => rfl
  | (k, v) :: ms => by
    rw [mapMemberStrings, membersLevels, membersLevels, levels_mapStrings v,
      membersLevels_mapMemberStrings ms]

end

mutual

/-- … the numbers … -/
theorem whole_mapStrings : ∀ v : Value, (mapStrings f v).Whole ↔ v.Whole
  | .array vs => by rw [mapStrings, Whole, Whole, itemsWhole_mapItemStrings vs]
  | .object ms => by rw [mapStrings, Whole, Whole, membersWhole_mapMemberStrings ms]
  | .string _ => by simp only [mapStrings, Whole]
  | .null => by simp only [mapStrings]
  | .bool _ => by simp only [mapStrings]
  | .number _ => by simp only [mapStrings]

theorem itemsWhole_mapItemStrings :
    ∀ vs : List Value, ItemsWhole (mapItemStrings f vs) ↔ ItemsWhole vs
  | [] => Iff.rfl
  | v :: vs => by
    rw [mapItemStrings, ItemsWhole, ItemsWhole, whole_mapStrings v, itemsWhole_mapItemStrings vs]

theorem membersWhole_mapMemberStrings :
    ∀ ms : List (String × Value), MembersWhole (mapMemberStrings f ms) ↔ MembersWhole ms
  | [] => Iff.rfl
  | (k, v) :: ms => by
    rw [mapMemberStrings, MembersWhole, MembersWhole, whole_mapStrings v,
      membersWhole_mapMemberStrings ms]

end

mutual

/-- … and the order of the members. -/
theorem sorted_mapStrings : ∀ v : Value, (mapStrings f v).Sorted ↔ v.Sorted
  | .array vs => by rw [mapStrings, Sorted, Sorted, itemsSorted_mapItemStrings vs]
  | .object ms => by
    rw [mapStrings, Sorted, Sorted, sorted_mapMemberStrings, membersSorted_mapMemberStrings ms]
  | .string _ => by simp only [mapStrings, Sorted]
  | .null => by simp only [mapStrings]
  | .bool _ => by simp only [mapStrings]
  | .number _ => by simp only [mapStrings]

theorem itemsSorted_mapItemStrings :
    ∀ vs : List Value, ItemsSorted (mapItemStrings f vs) ↔ ItemsSorted vs
  | [] => Iff.rfl
  | v :: vs => by
    rw [mapItemStrings, ItemsSorted, ItemsSorted, sorted_mapStrings v, itemsSorted_mapItemStrings vs]

theorem membersSorted_mapMemberStrings :
    ∀ ms : List (String × Value), MembersSorted (mapMemberStrings f ms) ↔ MembersSorted ms
  | [] => Iff.rfl
  | (k, v) :: ms => by
    rw [mapMemberStrings, MembersSorted, MembersSorted, sorted_mapStrings v,
      membersSorted_mapMemberStrings ms]

end

end Json.Value

namespace Record

open Json (Value)

/-- Only the extras make a record portable or not. -/
theorem Portable.of_extras_eq {a b : Record} (h : b.Portable) (hextras : a.extras = b.extras) :
    a.Portable where
  sorted := hextras ▸ h.sorted
  free := hextras ▸ h.free
  whole := hextras ▸ h.whole
  sortedValues := hextras ▸ h.sortedValues
  levels := hextras ▸ h.levels

/-- **A portable record stays so when it is cleaned.** -/
theorem Portable.clean {r : Record} (h : r.Portable) : r.clean.Portable := by
  have hextras : r.clean.extras =
      r.extras.map fun p => (p.1, Value.mapStrings Text.trim p.2) :=
    Value.mapMemberStrings_eq_map r.extras
  have hback : ∀ p ∈ r.clean.extras, ∃ q ∈ r.extras, p = (q.1, Value.mapStrings Text.trim q.2) := by
    intro p hp
    rw [hextras] at hp
    obtain ⟨q, hq, rfl⟩ := List.mem_map.mp hp
    exact ⟨q, hq, rfl⟩
  constructor
  · exact ⟨(Value.sorted_mapMemberStrings Text.trim).mpr h.sorted, fun p hp => by
      obtain ⟨q, hq, rfl⟩ := hback p hp
      exact h.free q hq⟩
  · intro p hp
    obtain ⟨q, hq, rfl⟩ := hback p hp
    exact (Value.whole_mapStrings Text.trim q.2).mpr (h.whole q hq)
  · intro p hp
    obtain ⟨q, hq, rfl⟩ := hback p hp
    exact (Value.sorted_mapStrings Text.trim q.2).mpr (h.sortedValues q hq)
  · intro p hp
    obtain ⟨q, hq, rfl⟩ := hback p hp
    exact (Value.levels_mapStrings Text.trim q.2).symm ▸ h.levels q hq

/-! ## 2. Reading records -/

/-- **A record that a value describes is portable**, numbers apart. -/
theorem portable_of_ofJson? {v : Value} {r : Record} (hv : v.Shallow (Json.maxDepth - 1))
    (h : ofJson? v = some r) (hwhole : ∀ p ∈ r.extras, p.2.Whole) : r.Portable := by
  cases v with
  | object ms =>
    have hdepth : Json.maxDepth - 1 = 125 + 1 := rfl
    rw [hdepth] at hv
    obtain ⟨hsorted, hshallow⟩ := hv.of_object
    have hread : ReadFrom ms r := ofMembers?_eq_some_iff.mp h
    have hback : ∀ p ∈ r.extras, p ∈ ms := fun p hp => (hread.mem_extras_iff.mp hp).1
    constructor
    · exact hread.tidyExtras hsorted
    · exact hwhole
    · exact fun p hp => (hshallow p (hback p hp)).1
    · intro p hp
      have hlevels := (hshallow p (hback p hp)).2
      exact Nat.add_le_add_right hlevels 2
  | _ => cases h

/-- The items of the arrays of a file are sorted, and may be nested one level less deep. -/
theorem exists_of_mem_parseWithin :
    ∀ {steps : Nat} {cs : List Char} {rs : List Record}, parseWithin steps cs = .ok rs →
      ∀ r ∈ rs, ∃ v : Value, v.Shallow (Json.maxDepth - 1) ∧ ofJson? v = some r
  | 0, _, _, h, r, hr => by
    cases h
    cases hr
  | steps + 1, cs, rs, h, r, hr => by
    rw [parseWithin] at h
    split at h
    · cases h
      cases hr
    · split at h
      · cases h
      · rename_i items rest hnext
        obtain ⟨v, behind, hvalue, hend⟩ := Json.Reading.of_andThen hnext
        split at hend
        · cases hend
          have hshallow := (Json.shallow_of_valueWithin _ _ _ _ hvalue).of_array
          cases hmore : parseWithin steps rest with
          | error fault =>
            rw [hmore] at h
            cases h
          | ok more =>
            rw [hmore] at h
            cases h
            rcases List.mem_append.mp hr with hr | hr
            · obtain ⟨v, hv, hrecord⟩ := List.mem_filterMap.mp hr
              exact ⟨v, hshallow v hv, hrecord⟩
            · exact exists_of_mem_parseWithin hmore r hr
        · cases hend
      · cases h

/-- **Every record of a file is portable**, numbers apart. -/
theorem portable_of_mem_loadOrEmpty {content : Option ByteArray} {r : Record}
    (hr : r ∈ loadOrEmpty content) (hwhole : ∀ p ∈ r.extras, p.2.Whole) : r.Portable := by
  unfold loadOrEmpty at hr
  split at hr
  · rename_i rs hload
    unfold load at hload
    split at hload
    · cases hload
    · obtain ⟨v, hv, hrecord⟩ := exists_of_mem_parseWithin hload r hr
      exact portable_of_ofJson? hv hrecord hwhole
  · cases hr

/-! ## 3. Lines -/

/-- **A portable record is written on one line.** -/
theorem Portable.newline_notMem_line {r : Record} (h : r.Portable) : '\n' ∉ r.line.toList := by
  rw [line, Value.text, String.toList_ofList]
  refine (Json.printable_valueText _ ?_).newline_notMem
  exact Json.membersWhole_iff.mpr fun p hp => (h.members p hp).1

/-- The lines of records between brackets, with commas in between. -/
def bracketed (lines : List String) : String := "[" ++ ",".intercalate lines ++ "]"

/-- Between brackets, the lines of records are the text of one array. -/
theorem bracketed_lines (rs : List Record) :
    bracketed (rs.map line) = String.ofList (Json.valueText (.array (itemsOf rs))) := by
  rw [← String.toList_inj, String.toList_ofList, Json.arrayText_eq, itemsOf, List.map_map]
  simp [bracketed, String.toList_intercalate, line, Value.text, Function.comp_def]

/-- **The lines of records, joined to an array, give the records again.** -/
theorem parse_bracketed_lines {rs : List Record} (h : ∀ r ∈ rs, r.Portable) :
    parse (bracketed (rs.map line)) = .ok rs := by
  have hblank : Blank [] := fun _ hc => absurd hc List.not_mem_nil
  have harrays : ∀ a ∈ [(itemsOf rs, ([] : List Char))], Readable a.1 ∧ Blank a.2 := fun a ha => by
    rw [List.mem_singleton.mp ha]
    exact ⟨readable_itemsOf h, hblank⟩
  have hparse := parse_arraysText hblank harrays
  rw [bracketed_lines]
  simpa [arraysText, filterMap_itemsOf h] using hparse

/-- A file that holds a text is read as that text. -/
theorem load_toUTF8 (text : String) : load (some text.toUTF8) = parse text := by
  have hback : String.fromUTF8? text.toUTF8 = some text := dif_pos text.isValidUTF8
  rw [load, Option.bind_some, hback]

end Record

end Shortlist
