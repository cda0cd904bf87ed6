import Shortlist.Proofs.Json.Values
import Shortlist.Proofs.Record.Codec
import Shortlist.Record.Stream

/-!
# Decoding undoes printing

A record file may be written by appending arrays to it, so its text is a sequence of arrays with
blanks or nothing in between.  Reading such a text gives exactly the records that its items describe,
in their order; items that describe none are left out wherever they stand.  If the items are records
that were written, all of them come back.

A record is written with its fields in their own order, not sorted by key.  That makes no difference,
as the reader sorts the members of every object it reads.
-/

namespace Shortlist.Record

open Json (Value ItemsWhole MembersWhole MembersSorted itemsLevels membersLevels EndsNumber)

/-! ## 1. Texts of arrays -/

/-- Only characters that may stand between the tokens of a JSON text. -/
def Blank (cs : List Char) : Prop := ∀ c ∈ cs, Json.isSpace c = true

/-- Arrays one behind the other, each of them with the blanks that follow it. -/
def arraysText : List (List Value × List Char) → List Char
  | [] => []
  | (items, blanks) :: more => Json.valueText (.array items) ++ (blanks ++ arraysText more)

/-- An array's text begins with its bracket. -/
theorem arrayText_eq_cons (items : List Value) :
    ∃ cs, Json.valueText (.array items) = '[' :: cs := by
  cases items with
  | nil => exact ⟨[']'], rfl⟩
  | cons v vs => exact ⟨Json.valueText v ++ Json.itemsText vs, rfl⟩

/-- What follows an array does not continue a number. -/
theorem endsNumber_arraysText {blanks : List Char} (h : Blank blanks)
    (arrays : List (List Value × List Char)) : EndsNumber (blanks ++ arraysText arrays) := by
  intro c hc
  have hspace : Json.isSpace c = true ∨ c = '[' := by
    cases blanks with
    | cons d blanks =>
      cases hc
      exact Or.inl (h c List.mem_cons_self)
    | nil =>
      cases arrays with
      | nil => cases hc
      | cons a arrays =>
        obtain ⟨items, blanks⟩ := a
        obtain ⟨cs, htext⟩ := arrayText_eq_cons items
        rw [List.nil_append, arraysText, htext] at hc
        cases hc
        exact Or.inr rfl
  rcases hspace with hspace | rfl
  · simp only [Json.isSpace, Bool.or_eq_true, beq_iff_eq] at hspace
    rcases hspace with ((rfl | rfl) | rfl) | rfl
    all_goals decide
  · decide

/-- Blanks in front of a text that begins with none are skipped. -/
theorem skipSpace_append {blanks : List Char} (h : Blank blanks) (cs : List Char) :
    Json.skipSpace (blanks ++ cs) = Json.skipSpace cs :=
  List.dropWhile_append_of_pos h

/-! ## 2. Reading arrays -/

/-- An array that can be read: its numbers are integers of 64 bits, and it is not nested too
deeply. -/
structure Readable (items : List Value) : Prop where
  whole : (Value.array items).Whole
  levels : (Value.array items).levels ≤ Json.maxDepth

/-- **The next array** of a sequence is read up to its end. -/
theorem nextValue_array {items : List Value} (h : Readable items) {rest : List Char}
    (hrest : EndsNumber rest) :
    nextValue (Json.valueText (.array items) ++ rest) =
      .ok (.array (Json.itemsSettled items), rest) := by
  have hvalue := Json.valueWithin_valueText (.array items) Json.maxDepth rest h.whole h.levels hrest
  obtain ⟨cs, htext⟩ := arrayText_eq_cons items
  rw [nextValue, Json.value, hvalue, htext]
  rfl

/-- **A sequence of arrays** gives the records that their items describe as they are read. -/
theorem parseWithin_arraysText :
    ∀ {arrays : List (List Value × List Char)} {steps : Nat} {front : List Char}, Blank front →
      (∀ a ∈ arrays, Readable a.1 ∧ Blank a.2) → arrays.length ≤ steps →
      parseWithin steps (front ++ arraysText arrays) =
        .ok ((arrays.flatMap fun a => Json.itemsSettled a.1).filterMap ofJson?)
  | [], 0, front, _, _, _ => rfl
  | [], steps + 1, front, hfront, _, _ => by
    rw [arraysText, parseWithin, skipSpace_append hfront]
    rfl
  | (items, blanks) :: arrays, steps + 1, front, hfront, harrays, hsteps => by
    obtain ⟨⟨hitems, hblanks⟩, harrays⟩ := List.forall_mem_cons.mp harrays
    have hrest := endsNumber_arraysText hblanks arrays
    have hnext := nextValue_array hitems hrest
    have hmore := parseWithin_arraysText hblanks harrays (Nat.le_of_succ_le_succ hsteps)
    obtain ⟨cs, htext⟩ := arrayText_eq_cons items
    rw [arraysText, parseWithin, skipSpace_append hfront]
    rw [htext, List.cons_append] at hnext ⊢
    rw [Json.skipSpace_cons rfl]
    simp only [hnext, hmore]
    rw [List.flatMap_cons, List.filterMap_append]
    rfl

/-- There are no more arrays than characters. -/
theorem length_arraysText : ∀ arrays, arrays.length ≤ (arraysText arrays).length
  | [] => Nat.le_refl _
  | (items, blanks) :: arrays => by
    have ih := length_arraysText arrays
    obtain ⟨cs, htext⟩ := arrayText_eq_cons items
    rw [arraysText, htext]
    simp only [List.length_append, List.length_cons]
    omega

/-- The records that the text of a sequence of arrays describes. -/
theorem parse_arraysText {front : List Char} {arrays : List (List Value × List Char)}
    (hfront : Blank front) (harrays : ∀ a ∈ arrays, Readable a.1 ∧ Blank a.2) :
    parse (String.ofList (front ++ arraysText arrays)) =
      .ok ((arrays.flatMap fun a => Json.itemsSettled a.1).filterMap ofJson?) := by
  have hlength := length_arraysText arrays
  rw [parse, String.toList_ofList]
  refine parseWithin_arraysText hfront harrays ?_
  rw [List.length_append]
  omega

/-! ## 3. Written records -/

/-- A record that can be written and read back: its extras keep clear of the fixed fields, and their
values are sorted, hold integers of 64 bits only and are not nested too deeply. -/
structure Portable (r : Record) : Prop extends TidyExtras r where
  whole : ∀ p ∈ r.extras, p.2.Whole
  sortedValues : ∀ p ∈ r.extras, p.2.Sorted
  levels : ∀ p ∈ r.extras, p.2.levels + 2 ≤ Json.maxDepth

/-- The values of the fixed fields are neither nested nor out of range. -/
theorem plain_fixedMembers {r : Record} :
    ∀ p ∈ r.fixedMembers, p.2.Whole ∧ p.2.Sorted ∧ p.2.levels + 2 ≤ Json.maxDepth := by
  have hdepth : 0 + 2 ≤ Json.maxDepth := by decide
  refine forall_mem_fixedMembers (fun _ _ _ => ⟨trivial, trivial, hdepth⟩) (fun n => ?_)
    (fun _ => ⟨trivial, trivial, hdepth⟩)
  have hn := n.toNat_lt
  have hscore : (0 : Int) ≤ n.toNat ∧ (n.toNat : Int) ≤ 255 := by omega
  have hlow : -(Number.twoTo 63 : Int) ≤ 0 := by decide
  have hhigh : (255 : Int) ≤ Json.maxSignificand := by decide
  exact ⟨⟨hlow.trans hscore.1, hscore.2.trans hhigh⟩, trivial, hdepth⟩

/-- The members of a portable record are all such values. -/
theorem Portable.members {r : Record} (h : r.Portable) :
    ∀ p ∈ r.members, p.2.Whole ∧ p.2.Sorted ∧ p.2.levels + 2 ≤ Json.maxDepth := by
  intro p hp
  rcases List.mem_append.mp hp with hp | hp
  · exact plain_fixedMembers p hp
  · exact ⟨h.whole p hp, h.sortedValues p hp, h.levels p hp⟩

/-- Written with its fields in their own order, a record is read with its members sorted. -/
theorem Portable.settled {r : Record} (h : r.Portable) :
    (Value.object r.members).settled = r.toJson := by
  have hsorted : MembersSorted r.members :=
    Json.membersSorted_iff.mpr fun p hp => (h.members p hp).2.1
  rw [Value.settled, Json.membersSettled_of_sorted hsorted, toJson]

/-- The items of the array that records are written as. -/
def itemsOf (records : List Record) : List Value := records.map fun r => .object r.members

/-- An array of written records can be read. -/
theorem readable_itemsOf {records : List Record} (h : ∀ r ∈ records, r.Portable) :
    Readable (itemsOf records) := by
  constructor
  · refine Json.itemsWhole_iff.mpr fun v hv => ?_
    obtain ⟨r, hr, rfl⟩ := List.mem_map.mp hv
    exact Json.membersWhole_iff.mpr fun p hp => ((h r hr).members p hp).1
  · have hdepth : Json.maxDepth = 125 + 1 + 1 := rfl
    rw [Value.levels, hdepth, Nat.add_le_add_iff_right]
    refine Json.itemsLevels_le.mpr fun v hv => ?_
    obtain ⟨r, hr, rfl⟩ := List.mem_map.mp hv
    rw [Value.levels, Nat.add_le_add_iff_right]
    refine Json.membersLevels_le.mpr fun p hp => ?_
    have hlevels := ((h r hr).members p hp).2.2
    omega

/-- **Written records describe themselves.** -/
theorem filterMap_itemsOf {records : List Record} (h : ∀ r ∈ records, r.Portable) :
    (Json.itemsSettled (itemsOf records)).filterMap ofJson? = records := by
  have hread : ∀ r ∈ records, ofJson? (Value.object r.members).settled = some r := fun r hr => by
    rw [(h r hr).settled, ofJson?_toJson (h r hr).toTidyExtras]
  rw [Json.itemsSettled_eq_map, itemsOf, List.map_map, List.filterMap_map]
  refine (List.filterMap_congr (g := some) hread).trans ?_
  exact List.filterMap_some

/-! ## 4. Decoding undoes printing -/

/-- **Decoding undoes printing.**  The text of arrays of any values, with blanks or nothing around
them, gives the records that the items describe, in their order, without the items that describe
none; and the text of arrays of records gives these records. -/
theorem decoding_undoes_printing (front : List Char) (hfront : Blank front) :
    (∀ arrays : List (List Value × List Char),
      (∀ a ∈ arrays, Readable a.1 ∧ (Value.array a.1).Sorted ∧ Blank a.2) →
        parse (String.ofList (front ++ arraysText arrays)) =
          .ok ((arrays.flatMap fun a => a.1).filterMap ofJson?)) ∧
    ∀ batches : List (List Record × List Char),
      (∀ b ∈ batches, (∀ r ∈ b.1, r.Portable) ∧ Blank b.2) →
        parse (String.ofList (front ++ arraysText (batches.map fun b => (itemsOf b.1, b.2)))) =
          .ok (batches.flatMap fun b => b.1) := by
  constructor
  · intro arrays harrays
    rw [parse_arraysText hfront fun a ha => ⟨(harrays a ha).1, (harrays a ha).2.2⟩]
    congr 2
    refine List.flatMap_congr fun a ha => ?_
    exact Json.itemsSettled_of_sorted (harrays a ha).2.1
  · intro batches hbatches
    rw [parse_arraysText hfront]
    · rw [List.flatMap_map, List.filterMap_flatMap]
      congr 1
      exact List.flatMap_congr fun b hb => filterMap_itemsOf (hbatches b hb).1
    · intro a ha
      obtain ⟨b, hb, rfl⟩ := List.mem_map.mp ha
      exact ⟨readable_itemsOf (hbatches b hb).1, (hbatches b hb).2⟩

/-- Two arrays without a blank in between and an item that is no record; a record with an extra. -/
theorem decoding_undoes_printing_short :
    parse (String.ofList ([' '] ++ arraysText
        [([.object [("title", .string "a\n")], .number (.integer (-42))], []),
          ([.array []], ['\n'])])) =
      .ok [{ title := "a\n" }] ∧
    parse (String.ofList ([' '] ++ arraysText
        ([([{ title := "b", extras := [("rank", .bool true)] }], [])].map
          fun b => (itemsOf b.1, b.2)))) =
      .ok [{ title := "b", extras := [("rank", .bool true)] }] := by
  have hfront : Blank [' '] := by simp [Blank, Json.isSpace]
  obtain ⟨harrays, hbatches⟩ := decoding_undoes_printing [' '] hfront
  constructor
  · rw [harrays]
    · rfl
    · have hnumber : (Json.Numeral.integer (-42)).Whole := ⟨by decide, by decide⟩
      intro a ha
      simp only [List.mem_cons, List.not_mem_nil, or_false] at ha
      rcases ha with rfl | rfl
      · exact ⟨⟨⟨⟨trivial, trivial⟩, hnumber, trivial⟩, by decide⟩,
          ⟨⟨List.pairwise_singleton _ _, trivial, trivial⟩, trivial, trivial⟩, by simp [Blank]⟩
      · exact ⟨⟨⟨trivial, trivial⟩, by decide⟩, ⟨trivial, trivial⟩, by simp [Blank, Json.isSpace]⟩
  · rw [hbatches]
    · rfl
    · intro b hb
      rw [List.mem_singleton.mp hb]
      refine ⟨fun r hr => ?_, by simp [Blank]⟩
      rw [List.mem_singleton.mp hr]
      exact {
        sorted := List.pairwise_singleton _ _
        free := by simp [fixedKeys]
        whole := by simp [Value.Whole]
        sortedValues := by simp [Value.Sorted]
        levels := by simp [Value.levels, Json.maxDepth] }

end Shortlist.Record
