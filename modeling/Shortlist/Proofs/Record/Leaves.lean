import Mathlib.Data.List.Forall2
import Mathlib.Data.Option.Defs
import Shortlist.Proofs.Record.Cleaning

/-!
# What cleaning changes

Cleaning trims the strings of a record and touches nothing else.  Both halves are stated here without
the functions that do it.

What is left of a text is given by the text: there are blanks, then what is left, which has no blanks at
its ends, and then blanks again (`Text.TrimsTo`).  What is left of a value of the extras, which may be
nested to any depth, is given place by place: a *path* leads to each value inside of it, and the *face*
of a value is what it shows when nobody looks inside, that is its content or, if there are values in it,
their number or their keys.  Cleaning keeps all paths and all faces, apart from the strings, which it
trims.
-/

namespace Shortlist

/-! ## 1. Texts -/

namespace Text

/-- The second text is the first one without the blanks at its ends. -/
def TrimsTo (s t : String) : Prop :=
  ∃ front back : List Char, (∀ c ∈ front, isBlank c = true) ∧ (∀ c ∈ back, isBlank c = true) ∧
    s.toList = front ++ t.toList ++ back ∧ Trimmed t.toList

/-- Blanks at the end are dropped with those in front of them. -/
theorem trimRight_append {back : List Char} (h : ∀ c ∈ back, isBlank c = true) (cs : List Char) :
    trimRight (cs ++ back) = trimRight cs := by
  have hback : ∀ c ∈ back.reverse, isBlank c = true := fun c hc => h c (List.mem_reverse.mp hc)
  rw [trimRight, List.reverse_append, List.dropWhile_append_of_pos hback, trimRight]

/-- **Trimming finds what is left of a text**, and nothing else is left of it. -/
theorem trimsTo_iff {s t : String} : TrimsTo s t ↔ t = trim s := by
  constructor
  · rintro ⟨front, back, hfront, hback, hs, ht⟩
    have hself := trimChars_eq_self_iff.mpr ht
    rw [← String.toList_inj, trim, String.toList_ofList, hs, trimChars, List.append_assoc,
      List.dropWhile_append_of_pos hfront]
    cases hempty : t.toList with
    | nil =>
      have hnone : back.dropWhile isBlank = [] := List.dropWhile_eq_nil_iff.mpr hback
      rw [List.nil_append, hnone]
      rfl
    | cons c cs =>
      rw [hempty] at ht hself
      have hc : ¬ isBlank c = true := ne_true_of_eq_false (ht.1 (Nat.succ_pos _))
      rw [trimChars, List.dropWhile_cons_of_neg hc] at hself
      rw [List.cons_append, List.dropWhile_cons_of_neg hc, ← List.cons_append,
        trimRight_append hback, hself]
  · rintro rfl
    have hsplit : s.toList.takeWhile isBlank ++
        (trimChars s.toList ++ (s.toList.dropWhile isBlank).rtakeWhile isBlank) = s.toList := by
      rw [trimChars, trimRight_eq, List.rdropWhile_append_rtakeWhile, List.takeWhile_append_dropWhile]
    rw [trim, TrimsTo, String.toList_ofList]
    exact ⟨_, _, fun c hc => List.mem_takeWhile_imp hc, fun c hc => List.mem_rtakeWhile_imp hc,
      by rw [List.append_assoc, hsplit], trimmed_trimChars _⟩

end Text

/-! ## 2. Values -/

namespace Json.Value

/-- What a value shows when nobody looks inside. -/
inductive Face where
  | null
  | bool (value : Bool)
  | number (value : Numeral)
  | string (value : String)
  | array (length : Nat)
  | object (keys : List String)
deriving DecidableEq

/-- The face of a value. -/
def face : Value → Face
  | .null => .null
  | .bool b => .bool b
  | .number n => .number n
  | .string s => .string s
  | .array items => .array items.length
  | .object members => .object (members.map Prod.fst)

/-- The values that stand directly inside of a value, in their order. -/
def inner : Value → List Value
  | .array items => items
  | .object members => members.map Prod.snd
  | _ => []

/-- The value that a path leads to: each step says the how-manieth value inside is meant. -/
def at? : List Nat → Value → Option Value
  | [], v => some v
  | i :: path, v => v.inner[i]?.bind (at? path)

/-- Faces that are the same, or those of a text and of what is left of it. -/
def Face.TrimsTo : Face → Face → Prop
  | .string s, .string t => Text.TrimsTo s t
  | a, b => a = b

variable {f : String → String}

theorem mapItemStrings_eq_map : ∀ vs : List Value, mapItemStrings f vs = vs.map (mapStrings f)
  | [] => rfl
  | v :: vs => by rw [mapItemStrings, mapItemStrings_eq_map vs, List.map_cons]

/-- What is inside of a changed value are the changed values that were inside. -/
theorem inner_mapStrings (v : Value) : (mapStrings f v).inner = v.inner.map (mapStrings f) := by
  cases v with
  | array items => rw [mapStrings, inner, inner, mapItemStrings_eq_map]
  | object members =>
    rw [mapStrings, inner, inner, mapMemberStrings_eq_map, List.map_map, List.map_map]
    rfl
  | _ => simp only [mapStrings, inner, List.map_nil]

/-- **A path leads to the changed value** of the one it led to before, and leads nowhere if it did so
before. -/
theorem at?_mapStrings (path : List Nat) (v : Value) :
    at? path (mapStrings f v) = (at? path v).map (mapStrings f) := by
  induction path generalizing v with
  | nil => rfl
  | cons i path ih =>
    rw [at?, at?, inner_mapStrings, List.getElem?_map]
    cases v.inner[i]? with
    | none => rfl
    | some w => exact ih w

/-- A trimmed value has the face of the value itself, except that a string is trimmed. -/
theorem face_trimsTo (v : Value) : v.face.TrimsTo (mapStrings Text.trim v).face := by
  cases v with
  | string s => exact Text.trimsTo_iff.mpr rfl
  | array items =>
    rw [mapStrings, face, face, mapItemStrings_eq_map, List.length_map]
    rfl
  | object members =>
    rw [mapStrings, face, face, mapMemberStrings_eq_map, List.map_map]
    rfl
  | _ =>
    simp only [mapStrings]
    rfl

end Json.Value

/-! ## 3. Records -/

namespace Record

open Json (Value)

/-- The texts that are always there. -/
def plainTexts (r : Record) : List String :=
  [r.title, r.company, r.location, r.jobType, r.link, r.source]

/-- The texts that may be unset. -/
def optionalTexts (r : Record) : List (Option String) :=
  [r.description, r.budget, r.salary, r.datePosted, r.keywordSearched, r.region, r.jobCategory,
    r.jobCategoryIcon, r.regionCategory, r.regionIcon]

/-- These are all fixed fields that hold a text. -/
theorem texts_eq (r : Record) : r.texts = r.plainTexts ++ r.optionalTexts.filterMap id := rfl

/-- The face of what a path through the extras leads to. -/
def face? (r : Record) (path : List Nat) : Option Value.Face :=
  ((Value.object r.extras).at? path).map Value.face

/-- The string is one of the record: a fixed text, or in the extras at any depth. -/
def HasString (r : Record) (s : String) : Prop :=
  s ∈ r.texts ∨ ∃ path, r.face? path = some (.string s)

/-- The extras of a clean record, as one value. -/
theorem object_extras_clean (r : Record) :
    Value.object r.clean.extras = Value.mapStrings Text.trim (.object r.extras) := by
  rw [Value.mapStrings]
  rfl

/-- **Every string of a clean record is trimmed.** -/
theorem exists_trim_of_hasString {r : Record} {s : String} (h : r.clean.HasString s) :
    ∃ t, s = Text.trim t := by
  rcases h with htext | ⟨path, hface⟩
  · have htexts : r.clean.texts = r.texts.map Text.trim := by
      rw [texts_eq, texts_eq, List.map_append, List.map_filterMap]
      rfl
    rw [htexts] at htext
    obtain ⟨t, -, rfl⟩ := List.mem_map.mp htext
    exact ⟨t, rfl⟩
  · rw [face?, object_extras_clean, Value.at?_mapStrings, Option.map_map] at hface
    obtain ⟨v, -, hv⟩ := Option.map_eq_some_iff.mp hface
    cases v with
    | string t =>
      rw [Function.comp_apply, Value.mapStrings, Value.face] at hv
      cases hv
      exact ⟨t, rfl⟩
    | _ =>
      simp only [Function.comp_apply, Value.mapStrings, Value.face] at hv
      cases hv

/-- **Cleaning trims every string of a record and changes nothing else.**  The texts that are always
there are trimmed, and so are the others that are set; the score and the flag stay; and along every path
through the extras there is what was there before, a trimmed string in place of a string.  So no string
of a clean record has a blank at either end, and cleaning again changes nothing. -/
theorem clean_trims_strings_only (r : Record) :
    List.Forall₂ Text.TrimsTo r.plainTexts r.clean.plainTexts ∧
      List.Forall₂ (Option.Rel Text.TrimsTo) r.optionalTexts r.clean.optionalTexts ∧
      r.clean.relevanceScore = r.relevanceScore ∧ r.clean.isRemote = r.isRemote ∧
      (∀ path, Option.Rel Value.Face.TrimsTo (r.face? path) (r.clean.face? path)) ∧
      (∀ s, r.clean.HasString s → Text.Trimmed s.toList) ∧
      r.clean.clean = r.clean := by
  have htrim : ∀ s, Text.TrimsTo s (Text.trim s) := fun s => Text.trimsTo_iff.mpr rfl
  have hoptional : ∀ o : Option String, Option.Rel Text.TrimsTo o (o.map Text.trim) := fun o => by
    cases o with
    | none => exact .none
    | some s => exact .some (htrim s)
  refine ⟨?_, ?_, rfl, rfl, fun path => ?_, fun s hs => ?_, clean_clean r⟩
  · have hplain : r.clean.plainTexts = r.plainTexts.map Text.trim := rfl
    rw [hplain, List.forall₂_map_right_iff, List.forall₂_same]
    exact fun s _ => htrim s
  · have hset : r.clean.optionalTexts = r.optionalTexts.map (Option.map Text.trim) := rfl
    rw [hset, List.forall₂_map_right_iff, List.forall₂_same]
    exact fun o _ => hoptional o
  · rw [face?, face?, object_extras_clean, Value.at?_mapStrings]
    cases (Value.object r.extras).at? path with
    | none => exact .none
    | some v => exact .some v.face_trimsTo
  · obtain ⟨t, rfl⟩ := exists_trim_of_hasString hs
    obtain ⟨-, -, -, -, -, htrimmed⟩ := htrim t
    exact htrimmed

end Record

end Shortlist
