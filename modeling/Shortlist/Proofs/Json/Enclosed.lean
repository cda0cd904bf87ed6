import Mathlib.Data.List.DropRight
import Shortlist.Proofs.Json.Delimited

/-!
# Arrays end with their bracket

The items of an array and the members of an object stop where a comma or the closing bracket stands, so
all of them can be read without a look at what is behind the bracket.  A number is only stopped, not
delimited, and a value may be a number; but an item always has something behind it, as a list that
breaks off is a fault.

The induction is on the levels that are left, as for everything that is read, and inside of it on the
steps of a list.
-/

namespace Shortlist.Json

/-! ## 1. Items and members -/

section Lists

variable {item : List Char → Reading Value}

/-- An entry begins where it begins with more text behind it. -/
theorem EntryAt.append {opens : Char → Prop} {first : Bool} {cs text : List Char}
    (h : EntryAt opens first cs text) (more : List Char) :
    EntryAt opens first (cs ++ more) (text ++ more) := by
  cases h with
  | first h hc => exact .first (skipSpace_of_found h more) hc
  | more h hbehind hc => exact .more (skipSpace_of_found h more) (skipSpace_of_found hbehind more) hc

theorem EntryAt.length_le {opens : Char → Prop} {first : Bool} {cs text : List Char}
    (h : EntryAt opens first cs text) : text.length ≤ cs.length := by
  cases h with
  | first h _ => exact length_of_found h
  | more h hbehind _ =>
    have hcomma := length_of_found h
    have hentry := length_of_found hbehind
    rw [List.length_cons]
    omega

/-- A list that breaks off is a fault … -/
theorem items_nil (first : Bool) (steps : Nat) (vs : List Value) (rest : List Char) :
    items item first steps [] ≠ .ok (vs, rest) := by
  cases steps with
  | zero => nofun
  | succ steps => nofun

/-- … and so is an object. -/
theorem members_nil (first : Bool) (steps : Nat) (read ms : Keyed Value) (rest : List Char) :
    members item first steps read [] ≠ .ok (ms, rest) := by
  cases steps with
  | zero => nofun
  | succ steps => nofun

/-- **Items are over with the closing bracket**, if each of them stops. -/
theorem carries_items (hitem : Stopped item) :
    ∀ {steps further : Nat} {first : Bool}, steps ≤ further →
      Carries (items item first steps) (items item first further)
  | 0, _, _, _, _, _, _, h => by cases h
  | steps + 1, further + 1, first, hle, cs, vs, rest, h => by
    have hnext : Carries (itemOn item steps) (itemOn item further) :=
      hitem.andThen (fun v => (carries_items hitem (Nat.le_of_succ_le_succ hle)).as (v :: ·))
        fun v vs rest hnil => by
          obtain ⟨ws, hws, -⟩ := Reading.of_as hnil
          exact items_nil false steps ws rest hws
    rcases of_items h with ⟨hskip, rfl⟩ | ⟨text, hentry, hread⟩
    · exact ⟨Nat.le_of_lt (length_of_found hskip),
        fun more => items_end (skipSpace_of_found hskip more) first further⟩
    · obtain ⟨hrest, hmore⟩ := hnext hread
      refine ⟨hrest.trans hentry.length_le, fun more => ?_⟩
      rw [items_entry (hentry.append more), hmore]

/-- **Members are over with the closing brace**, if each of their values stops. -/
theorem carries_members (hitem : Stopped item) :
    ∀ {steps further : Nat} {first : Bool} {read : Keyed Value}, steps ≤ further →
      Carries (members item first steps read) (members item first further read)
  | 0, _, _, _, _, _, _, _, h => by cases h
  | steps + 1, further + 1, first, read, hle, cs, ms, rest, h => by
    have hvalue : ∀ key : String,
        Carries
          (fun cs => (item cs).andThen fun v rest =>
            members item false steps (Keyed.insert key v read) rest)
          fun cs => (item cs).andThen fun v rest =>
            members item false further (Keyed.insert key v read) rest := fun key =>
      hitem.andThen (fun v => carries_members hitem (Nat.le_of_succ_le_succ hle))
        fun v => members_nil false steps (Keyed.insert key v read)
    have hnext : Carries (memberOn item steps read) (memberOn item further read) := by
      refine delimited_string.andThen fun key cs ms rest hcolon => ?_
      split at hcolon
      · cases hcolon
      · rename_i hskip
        obtain ⟨hrest, hmore⟩ := hvalue key hcolon
        refine ⟨hrest.trans (Nat.le_of_lt (length_of_found hskip)), fun more => ?_⟩
        simp only [skipSpace_of_found hskip]
        exact hmore more
      · cases hcolon
    rcases of_members h with ⟨hskip, rfl⟩ | ⟨text, hentry, hread⟩
    · exact ⟨Nat.le_of_lt (length_of_found hskip),
        fun more => members_end (skipSpace_of_found hskip more) first further ms⟩
    · obtain ⟨hrest, hmore⟩ := hnext hread
      refine ⟨hrest.trans ((Nat.le_succ _).trans hentry.length_le), fun more => ?_⟩
      rw [members_entry (hentry.append more)]
      exact hmore more

/-- **An array is delimited** by its brackets … -/
theorem delimited_items (hitem : Stopped item) :
    Delimited fun cs => items item true (cs.length + 1) cs :=
  delimited_of_steps (carries_items hitem) 1

/-- … and an object by its braces. -/
theorem delimited_members (hitem : Stopped item) :
    Delimited fun cs => members item true (cs.length + 1) [] cs :=
  delimited_of_steps (carries_members hitem) 1

end Lists

/-! ## 2. Values -/

/-- Behind blanks there is no further blank. -/
theorem skipSpace_front {cs behind : List Char} {c : Char} (h : skipSpace cs = c :: behind) :
    skipSpace (c :: behind) = c :: behind := by
  rw [← h]
  exact List.dropWhile_idempotent _ _

/-- Blanks in front of a value make no difference. -/
theorem valueWithin_found {cs behind : List Char} {c : Char} (h : skipSpace cs = c :: behind)
    (depth : Nat) : valueWithin depth cs = valueWithin depth (c :: behind) := by
  rw [valueWithin, valueWithin, h, skipSpace_front h]

/-- What stands at the front of a text stands there with more text behind it as well.  Only a number has
to be followed by something already. -/
theorem ReadAs.append {depth : Nat} (hitem : ∀ lower < depth, Stopped (valueWithin lower))
    {text rest : List Char} {v : Value} (h : ReadAs depth rest text v) :
    rest.length ≤ text.length ∧
      (rest ≠ [] → ∀ more, ReadAs depth (rest ++ more) (text ++ more) v) := by
  cases h with
  | wordNull h =>
    obtain ⟨hle, hmore⟩ := delimited_word _ _ h
    exact ⟨Nat.le_succ_of_le hle, fun _ more => .wordNull (hmore more)⟩
  | wordTrue h =>
    obtain ⟨hle, hmore⟩ := delimited_word _ _ h
    exact ⟨Nat.le_succ_of_le hle, fun _ more => .wordTrue (hmore more)⟩
  | wordFalse h =>
    obtain ⟨hle, hmore⟩ := delimited_word _ _ h
    exact ⟨Nat.le_succ_of_le hle, fun _ more => .wordFalse (hmore more)⟩
  | string h =>
    obtain ⟨hle, hmore⟩ := delimited_string h
    exact ⟨Nat.le_succ_of_le hle, fun _ more => .string (hmore more)⟩
  | minus h =>
    obtain ⟨hle, hmore⟩ := stopped_numeral _ h
    exact ⟨Nat.le_succ_of_le hle, fun hrest more => .minus (hmore hrest more)⟩
  | digit hc h =>
    obtain ⟨hle, hmore⟩ := stopped_numeral _ h
    exact ⟨hle, fun hrest more => .digit hc (hmore hrest more)⟩
  | array hdepth h =>
    obtain ⟨hle, hmore⟩ := delimited_items (hitem _ (hdepth ▸ Nat.lt_succ_self _)) h
    exact ⟨Nat.le_succ_of_le hle, fun _ more => .array hdepth (hmore more)⟩
  | object hdepth h =>
    obtain ⟨hle, hmore⟩ := delimited_members (hitem _ (hdepth ▸ Nat.lt_succ_self _)) h
    exact ⟨Nat.le_succ_of_le hle, fun _ more => .object hdepth (hmore more)⟩

/-- **A value stops.** -/
theorem stopped_valueWithin (depth : Nat) : Stopped (valueWithin depth) := by
  induction depth using Nat.strongRecOn with
  | ind depth ih =>
    intro cs v rest h
    have hread := of_valueWithin h
    cases hskip : skipSpace cs with
    | nil =>
      rw [hskip] at hread
      cases hread
    | cons c behind =>
      rw [hskip] at hread
      obtain ⟨hle, hmore⟩ := hread.append ih
      refine ⟨hle.trans (length_of_found hskip), fun hrest more => ?_⟩
      rw [valueWithin_found (skipSpace_of_found hskip more)]
      exact (hmore hrest more).read

/-- **An array that was read** begins with its bracket, and is the same array with any text behind
it. -/
theorem array_append {depth : Nat} {cs rest : List Char} {vs : List Value}
    (h : valueWithin depth cs = .ok (.array vs, rest)) :
    ∃ behind, skipSpace cs = '[' :: behind ∧ rest.length ≤ behind.length ∧
      ∀ more, valueWithin depth (cs ++ more) = .ok (.array vs, rest ++ more) := by
  have hread := of_valueWithin h
  generalize hskip : skipSpace cs = text at hread
  cases hread with
  | array hdepth hitems =>
    obtain ⟨hle, hmore⟩ := delimited_items (stopped_valueWithin _) hitems
    refine ⟨_, rfl, hle, fun more => ?_⟩
    rw [valueWithin_found (skipSpace_of_found hskip more)]
    exact (ReadAs.array hdepth (hmore more)).read

end Shortlist.Json
