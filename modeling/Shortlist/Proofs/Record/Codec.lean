import Shortlist.Proofs.Keyed
import Shortlist.Record.Codec

/-!
# Records read back

A record that is written as an object is read back as the same record, whatever is set in it: every
field finds its own member, an optional field that is not set has none, and what is left over are the
extras.  The extras must not use the key of a fixed field, as the two would be mixed up.
-/

namespace Shortlist.Record

open Json (Value Numeral)

/-- The extras of a record are sorted by key, and no key of them is that of a fixed field. -/
structure TidyExtras (r : Record) : Prop where
  sorted : Keyed.Sorted r.extras
  free : ∀ p ∈ r.extras, p.1 ∉ fixedKeys

/-! ## 1. Fields -/

theorem reverse_setMember {α : Type} (key : String) (write : α → Value) (o : Option α) :
    (setMember key write o).reverse = setMember key write o := by
  cases o with
  | none => rfl
  | some a => rfl

/-- An optional field has its own member only. -/
theorem find?_setMember {α : Type} (other key : String) (write : α → Value) (o : Option α) :
    Keyed.find? other (setMember key write o) = if other = key then o.map write else none := by
  cases o with
  | none =>
    rw [Option.map_none, ite_self]
    rfl
  | some a => rfl

/-- The member of an optional field has the key of the field. -/
theorem exists_of_mem_setMember {α : Type} {key : String} {write : α → Value} {o : Option α}
    {p : String × Value} (hp : p ∈ setMember key write o) : ∃ a, p = (key, write a) := by
  cases o with
  | none => exact absurd hp List.not_mem_nil
  | some a => exact ⟨a, List.mem_singleton.mp hp⟩

/-- A property of all fixed members is one of the texts, the score and the flag. -/
theorem forall_mem_fixedMembers {r : Record} {P : String × Value → Prop}
    (htext : ∀ key ∈ fixedKeys, ∀ s, P (key, .string s))
    (hscore : ∀ n : UInt8, P ("relevance_score", .number (.integer n.toNat)))
    (hflag : ∀ b, P ("is_remote", .bool b)) : ∀ p ∈ r.fixedMembers, P p := by
  have hoptional : ∀ key ∈ fixedKeys, ∀ (o : Option String), ∀ p ∈ setMember key .string o, P p :=
    fun key hkey o p hp => by
      obtain ⟨s, rfl⟩ := exists_of_mem_setMember hp
      exact htext key hkey s
  intro p hp
  simp only [fixedMembers, List.mem_append, or_assoc] at hp
  rcases hp with hp | hp | hp | hp | hp | hp | hp | hp | hp | hp | hp | hp | hp
  · simp only [List.mem_cons, List.not_mem_nil, or_false] at hp
    rcases hp with rfl | rfl | rfl | rfl | rfl | rfl
    all_goals exact htext _ (by decide) _
  · exact hoptional _ (by decide) _ p hp
  · exact hoptional _ (by decide) _ p hp
  · exact hoptional _ (by decide) _ p hp
  · exact hoptional _ (by decide) _ p hp
  · exact hoptional _ (by decide) _ p hp
  · exact hoptional _ (by decide) _ p hp
  · obtain ⟨n, rfl⟩ := exists_of_mem_setMember hp
    exact hscore n
  · exact hoptional _ (by decide) _ p hp
  · exact hoptional _ (by decide) _ p hp
  · exact hoptional _ (by decide) _ p hp
  · exact hoptional _ (by decide) _ p hp
  · obtain ⟨b, rfl⟩ := exists_of_mem_setMember hp
    exact hflag b

/-- All fixed members have fixed keys. -/
theorem mem_fixedKeys {r : Record} : ∀ p ∈ r.fixedMembers, p.1 ∈ fixedKeys := by
  have hscore : "relevance_score" ∈ fixedKeys := by decide
  have hflag : "is_remote" ∈ fixedKeys := by decide
  exact forall_mem_fixedMembers (fun _ hkey _ => hkey) (fun _ => hscore) (fun _ => hflag)

/-- A fixed key finds the member of its field. -/
theorem find?_members {r : Record} (h : r.TidyExtras) {key : String} (hkey : key ∈ fixedKeys) :
    Keyed.find? key (Keyed.insertAll r.members []) = Keyed.find? key r.fixedMembers.reverse := by
  have hextras : Keyed.find? key r.extras.reverse = none :=
    Keyed.find?_eq_none fun p hp heq => h.free p (List.mem_reverse.mp hp) (heq ▸ hkey)
  rw [Keyed.find?_insertAll, members, List.reverse_append, Keyed.find?_append, hextras,
    Option.none_or]
  exact Option.or_none

/-- What is left over behind the fixed fields are the extras. -/
theorem keep_members {r : Record} (h : r.TidyExtras) :
    Keyed.keep (fun key => !fixedKeys.contains key) (Keyed.insertAll r.members []) = r.extras := by
  have hfixed : r.fixedMembers.filter (fun p => !fixedKeys.contains p.1) = [] := by
    rw [List.filter_eq_nil_iff]
    intro p hp
    simp [mem_fixedKeys p hp]
  have hextras : r.extras.filter (fun p => !fixedKeys.contains p.1) = r.extras := by
    rw [List.filter_eq_self]
    intro p hp
    simp [h.free p hp]
  have hkeep : Keyed.keep (fun key => !fixedKeys.contains key) r.members = r.extras := by
    rw [Keyed.keep, members, List.filter_append, hfixed, hextras, List.nil_append]
  rw [Keyed.keep_insertAll _ _ List.Pairwise.nil, hkeep]
  exact Keyed.insertAll_sorted r.extras h.sorted

theorem optionalText?_map (o : Option String) : optionalText? (o.map .string) = some o := by
  cases o with
  | none => rfl
  | some s => rfl

theorem optionalFlag?_map (o : Option Bool) : optionalFlag? (o.map .bool) = some o := by
  cases o with
  | none => rfl
  | some b => rfl

theorem optionalScore?_map (o : Option UInt8) :
    optionalScore? (o.map fun n => .number (.integer n.toNat)) = some o := by
  cases o with
  | none => rfl
  | some n =>
    have hn := n.toNat_lt
    have hback : UInt8.ofNat n.toNat = n := UInt8.ofNat_toNat
    have hrange : (0 : Int) ≤ n.toNat ∧ (n.toNat : Int) ≤ 255 := by omega
    rw [Option.map_some, optionalScore?, if_pos hrange, Int.toNat_natCast, hback]

/-- **A written record is read back**, extras and all. -/
theorem ofJson?_toJson {r : Record} (h : r.TidyExtras) : ofJson? r.toJson = some r := by
  have hfield : ∀ key ∈ fixedKeys, Keyed.find? key (Keyed.insertAll r.members []) =
      Keyed.find? key r.fixedMembers.reverse := fun key hkey => find?_members h hkey
  rw [toJson, ofJson?, ofMembers?]
  simp only [keep_members h]
  rw [hfield "title" (by decide), hfield "company" (by decide), hfield "location" (by decide),
    hfield "type" (by decide), hfield "link" (by decide), hfield "source" (by decide),
    hfield "description" (by decide), hfield "budget" (by decide), hfield "salary" (by decide),
    hfield "date_posted" (by decide), hfield "keyword_searched" (by decide),
    hfield "region" (by decide), hfield "relevance_score" (by decide),
    hfield "job_category" (by decide), hfield "job_category_icon" (by decide),
    hfield "region_category" (by decide), hfield "region_icon" (by decide),
    hfield "is_remote" (by decide)]
  simp [fixedMembers, reverse_setMember, Keyed.find?_append, find?_setMember, Keyed.find?,
    requiredText?, plainText?, optionalText?_map, optionalScore?_map, optionalFlag?_map]

end Shortlist.Record
