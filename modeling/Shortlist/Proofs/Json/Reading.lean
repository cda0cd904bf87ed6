import Shortlist.Proofs.Json.Values

/-!
# What is read

Whatever text a value is read from, the members of all its objects are sorted by their keys, and it is
nested no deeper than the reader may go.  Both hold because the reader builds every object by inserting
its members into a sorted list, and counts a level down before it reads the inside of an array or an
object; so the induction is on the levels that are left, and inside of it on the steps of a list.

What the reader can do is said once: a list that was read ends or goes on with an entry (`of_items`,
`of_members`), and a value is what its first character announces (`of_valueWithin`).
-/

namespace Shortlist.Json

/-! ## 1. Reading one thing after another -/

namespace Reading

variable {α β : Type} {r : Reading α} {rest : List Char} {b : β}

/-- What was read after something else. -/
theorem of_andThen {next : α → List Char → Reading β} (h : r.andThen next = .ok (b, rest)) :
    ∃ a behind, r = .ok (a, behind) ∧ next a behind = .ok (b, rest) := by
  match r, h with
  | .ok (a, behind), h => exact ⟨a, behind, rfl, h⟩
  | .error _, h => cases h

/-- What was read and changed. -/
theorem of_as {f : α → β} (h : r.as f = .ok (b, rest)) : ∃ a, r = .ok (a, rest) ∧ b = f a := by
  obtain ⟨a, behind, hr, hnext⟩ := of_andThen h
  cases hnext
  exact ⟨a, hr, rfl⟩

end Reading

/-- A word stands for one value. -/
theorem eq_of_word {result v : Value} {rest : List Char} :
    ∀ {letters cs : List Char}, word result letters cs = .ok (v, rest) → v = result
  | [], _, h => by
    cases h
    rfl
  | _ :: _, [], h => by cases h
  | l :: letters, c :: cs, h => by
    rw [word] at h
    split at h
    · exact eq_of_word h
    · cases h

/-! ## 2. Items and members -/

section Lists

variable {item : List Char → Reading Value} {P : Value → Prop}

/-- **Items that were read** are none, behind the closing bracket, or begin with a first one. -/
theorem of_items {first : Bool} {steps : Nat} {cs rest : List Char} {vs : List Value}
    (h : items item first (steps + 1) cs = .ok (vs, rest)) :
    (skipSpace cs = ']' :: rest ∧ vs = []) ∨
      ∃ text, EntryAt (· ≠ ']') first cs text ∧ itemOn item steps text = .ok (vs, rest) := by
  rw [items] at h
  split at h
  · cases h
  · rename_i hskip
    cases h
    exact Or.inl ⟨hskip, rfl⟩
  · rename_i c behind hne hskip
    split_ifs at h with hfirst hcomma
    · rw [hfirst]
      exact Or.inr ⟨_, .first hskip hne, h⟩
    · rw [Bool.not_eq_true] at hfirst
      rw [eq_of_beq hcomma] at hskip
      split at h
      · cases h
      · cases h
      · rename_i hopen hclosed
        obtain ⟨d, text, hbehind⟩ := List.exists_cons_of_ne_nil hopen
        rw [hbehind] at h hclosed
        rw [hfirst]
        exact Or.inr ⟨_, .more hskip hbehind fun hd => hclosed text (by rw [hd]), h⟩

/-- **Members that were read** are the ones so far, behind the closing brace, or begin with one more. -/
theorem of_members {first : Bool} {steps : Nat} {read ms : Keyed Value} {cs rest : List Char}
    (h : members item first (steps + 1) read cs = .ok (ms, rest)) :
    (skipSpace cs = '}' :: rest ∧ ms = read) ∨
      ∃ text, EntryAt (· = '"') first cs ('"' :: text) ∧
        memberOn item steps read text = .ok (ms, rest) := by
  rw [members] at h
  split at h
  · cases h
  · rename_i hskip
    cases h
    exact Or.inl ⟨hskip, rfl⟩
  · rename_i c behind hne hskip
    split_ifs at h with hfirst hquote hcomma
    · rw [eq_of_beq hquote] at hskip
      rw [hfirst]
      exact Or.inr ⟨_, .first hskip rfl, h⟩
    · rw [Bool.not_eq_true] at hfirst
      rw [eq_of_beq hcomma] at hskip
      split at h
      · cases h
      · rename_i hbehind
        rw [hfirst]
        exact Or.inr ⟨_, .more hskip hbehind rfl, h⟩
      · cases h
      · cases h

/-- A property of all that a reader reads is one of all items that are read with it. -/
theorem forall_items (hitem : ∀ cs v rest, item cs = .ok (v, rest) → P v) :
    ∀ {steps : Nat} {first : Bool} {cs : List Char} {vs : List Value} {rest : List Char},
      items item first steps cs = .ok (vs, rest) → ∀ v ∈ vs, P v
  | 0, _, _, _, _, h => by cases h
  | steps + 1, first, cs, vs, rest, h => by
    rcases of_items h with ⟨-, rfl⟩ | ⟨text, -, hread⟩
    · exact fun _ hv => absurd hv List.not_mem_nil
    · obtain ⟨v, behind, hv, hmore⟩ := Reading.of_andThen hread
      obtain ⟨more, hitems, rfl⟩ := Reading.of_as hmore
      exact List.forall_mem_cons.mpr ⟨hitem _ _ _ hv, forall_items hitem hitems⟩

/-- A property of all that a reader reads is one of all members that are read with it, and the members
come sorted. -/
theorem forall_members (hitem : ∀ cs v rest, item cs = .ok (v, rest) → P v) :
    ∀ {steps : Nat} {first : Bool} {read ms : Keyed Value} {cs rest : List Char},
      Keyed.Sorted read → (∀ m ∈ read, P m.2) →
      members item first steps read cs = .ok (ms, rest) → Keyed.Sorted ms ∧ ∀ m ∈ ms, P m.2
  | 0, _, _, _, _, _, _, _, h => by cases h
  | steps + 1, first, read, ms, cs, rest, hsorted, hread, h => by
    rcases of_members h with ⟨-, rfl⟩ | ⟨text, -, hmember⟩
    · exact ⟨hsorted, hread⟩
    · obtain ⟨key, behind, -, hmember⟩ := Reading.of_andThen hmember
      split at hmember
      · cases hmember
      · obtain ⟨v, behind, hv, hmore⟩ := Reading.of_andThen hmember
        refine forall_members hitem (hsorted.insert key v) (fun m hm => ?_) hmore
        rcases Keyed.mem_insert hm with rfl | hm
        · exact hitem _ _ _ hv
        · exact hread m hm
      · cases hmember

end Lists

/-! ## 3. Values -/

/-- What stands in front of `rest`, by the first character of the text.  No blanks are in front. -/
inductive ReadAs (depth : Nat) (rest : List Char) : (text : List Char) → Value → Prop where
  | wordNull {cs : List Char} (h : word .null ['u', 'l', 'l'] cs = .ok (.null, rest)) :
      ReadAs depth rest ('n' :: cs) .null
  | wordTrue {cs : List Char} (h : word (.bool true) ['r', 'u', 'e'] cs = .ok (.bool true, rest)) :
      ReadAs depth rest ('t' :: cs) (.bool true)
  | wordFalse {cs : List Char}
      (h : word (.bool false) ['a', 'l', 's', 'e'] cs = .ok (.bool false, rest)) :
      ReadAs depth rest ('f' :: cs) (.bool false)
  | string {cs : List Char} {s : String} (h : string cs = .ok (s, rest)) :
      ReadAs depth rest ('"' :: cs) (.string s)
  | minus {cs : List Char} {n : Numeral} (h : numeral true cs = .ok (n, rest)) :
      ReadAs depth rest ('-' :: cs) (.number n)
  | digit {c : Char} {cs : List Char} {n : Numeral} (hc : isDecimal c = true)
      (h : numeral false (c :: cs) = .ok (n, rest)) : ReadAs depth rest (c :: cs) (.number n)
  | array {lower : Nat} {cs : List Char} {vs : List Value} (hdepth : depth = lower + 1)
      (h : items (valueWithin lower) true (cs.length + 1) cs = .ok (vs, rest)) :
      ReadAs depth rest ('[' :: cs) (.array vs)
  | object {lower : Nat} {cs : List Char} {ms : Keyed Value} (hdepth : depth = lower + 1)
      (h : members (valueWithin lower) true (cs.length + 1) [] cs = .ok (ms, rest)) :
      ReadAs depth rest ('{' :: cs) (.object ms)

/-- **A value that was read** is one of these. -/
theorem of_valueWithin {depth : Nat} {cs rest : List Char} {v : Value}
    (h : valueWithin depth cs = .ok (v, rest)) : ReadAs depth rest (skipSpace cs) v := by
  rw [valueWithin] at h
  split at h
  · cases h
  · rename_i c behind hskip
    rw [hskip]
    split_ifs at h with hnull htrue hfalse hquote hminus hdigit hbracket hbrace
    · rw [eq_of_beq hnull]
      cases eq_of_word h
      exact .wordNull h
    · rw [eq_of_beq htrue]
      cases eq_of_word h
      exact .wordTrue h
    · rw [eq_of_beq hfalse]
      cases eq_of_word h
      exact .wordFalse h
    · rw [eq_of_beq hquote]
      obtain ⟨s, hs, rfl⟩ := Reading.of_as h
      exact .string hs
    · rw [eq_of_beq hminus]
      obtain ⟨n, hn, rfl⟩ := Reading.of_as h
      exact .minus hn
    · obtain ⟨n, hn, rfl⟩ := Reading.of_as h
      exact .digit hdigit hn
    · rw [eq_of_beq hbracket]
      cases depth with
      | zero => cases h
      | succ lower =>
        obtain ⟨vs, hvs, rfl⟩ := Reading.of_as h
        exact .array rfl hvs
    · rw [eq_of_beq hbrace]
      cases depth with
      | zero => cases h
      | succ lower =>
        obtain ⟨ms, hms, rfl⟩ := Reading.of_as h
        exact .object rfl hms

/-- Each of these is read. -/
theorem ReadAs.read {depth : Nat} {text rest : List Char} {v : Value}
    (h : ReadAs depth rest text v) : valueWithin depth text = .ok (v, rest) := by
  cases h with
  | wordNull h => cases depth <;> exact h
  | wordTrue h => cases depth <;> exact h
  | wordFalse h => cases depth <;> exact h
  | string h =>
    rw [valueWithin_string, h]
    rfl
  | minus h =>
    rw [valueWithin_minus, h]
    rfl
  | digit hc h =>
    rw [valueWithin_digit hc, h]
    rfl
  | array hdepth h =>
    rw [hdepth, valueWithin_array, h]
    rfl
  | object hdepth h =>
    rw [hdepth, valueWithin_object, h]
    rfl

/-- What is read at a place where so many levels are left. -/
def Value.Shallow (depth : Nat) (v : Value) : Prop := v.Sorted ∧ v.levels ≤ depth

/-- An array of shallow items has one level more. -/
theorem Value.Shallow.array {depth : Nat} {vs : List Value} (h : ∀ v ∈ vs, v.Shallow depth) :
    (Value.array vs).Shallow (depth + 1) :=
  ⟨itemsSorted_iff.mpr fun v hv => (h v hv).1,
    Nat.succ_le_succ (itemsLevels_le.mpr fun v hv => (h v hv).2)⟩

/-- An object of shallow members has one level more. -/
theorem Value.Shallow.object {depth : Nat} {ms : List (String × Value)} (hsorted : Keyed.Sorted ms)
    (h : ∀ m ∈ ms, m.2.Shallow depth) : (Value.object ms).Shallow (depth + 1) :=
  ⟨⟨hsorted, membersSorted_iff.mpr fun m hm => (h m hm).1⟩,
    Nat.succ_le_succ (membersLevels_le.mpr fun m hm => (h m hm).2)⟩

/-- The items of a shallow array have one level less. -/
theorem Value.Shallow.of_array {depth : Nat} {vs : List Value}
    (h : (Value.array vs).Shallow (depth + 1)) : ∀ v ∈ vs, v.Shallow depth := fun v hv =>
  ⟨itemsSorted_iff.mp h.1 v hv, itemsLevels_le.mp (Nat.le_of_succ_le_succ h.2) v hv⟩

/-- The members of a shallow object are sorted and have one level less. -/
theorem Value.Shallow.of_object {depth : Nat} {ms : List (String × Value)}
    (h : (Value.object ms).Shallow (depth + 1)) :
    Keyed.Sorted ms ∧ ∀ m ∈ ms, m.2.Shallow depth :=
  ⟨h.1.1, fun m hm =>
    ⟨membersSorted_iff.mp h.1.2 m hm, membersLevels_le.mp (Nat.le_of_succ_le_succ h.2) m hm⟩⟩

/-- **What is read is sorted and shallow.** -/
theorem shallow_of_valueWithin (depth : Nat) : ∀ (cs : List Char) (v : Value) (rest : List Char),
    valueWithin depth cs = .ok (v, rest) → v.Shallow depth := by
  induction depth using Nat.strongRecOn with
  | ind depth ih =>
    intro cs v rest h
    have hplain : ∀ {w : Value}, w.Sorted → w.levels = 0 → w.Shallow depth :=
      fun hsorted hlevels => ⟨hsorted, hlevels ▸ Nat.zero_le depth⟩
    have hread := of_valueWithin h
    generalize skipSpace cs = text at hread
    cases hread with
    | wordNull _ => exact hplain trivial rfl
    | wordTrue _ => exact hplain trivial rfl
    | wordFalse _ => exact hplain trivial rfl
    | string _ => exact hplain trivial rfl
    | minus _ => exact hplain trivial rfl
    | digit _ _ => exact hplain trivial rfl
    | array hdepth hvs =>
      subst hdepth
      exact .array (forall_items (ih _ (Nat.lt_succ_self _)) hvs)
    | object hdepth hms =>
      subst hdepth
      obtain ⟨hsorted, hshallow⟩ := forall_members (ih _ (Nat.lt_succ_self _))
        List.Pairwise.nil (fun _ hm => absurd hm List.not_mem_nil) hms
      exact .object hsorted hshallow

end Shortlist.Json
