import Shortlist.Proofs.Json.Scalars
import Shortlist.Proofs.Keyed

/-!
# Values read back

The compact text of a value is read back as the value, with the members of every object brought into
the order of their keys.  The statement for the induction is about a value in front of any text that
does not continue a number, as that is how values stand inside of arrays and objects, and it counts
levels and steps downwards as the reader does: the levels of the value pay for the depth, and every
item or member pays for one step of its list.

Numbers are integers of 64 bits throughout (`Value.Whole`), and where the members of all objects are
sorted (`Value.Sorted`) the value that is read is the value that was written.
-/

namespace Shortlist.Json

/-! ## 1. Measures of a value -/

mutual

/-- How many levels of arrays and objects are nested in a value. -/
def Value.levels : Value → Nat
  | .array vs => itemsLevels vs + 1
  | .object ms => membersLevels ms + 1
  | _ => 0

/-- The levels of the deepest item. -/
def itemsLevels : List Value → Nat
  | [] => 0
  | v :: vs => max v.levels (itemsLevels vs)

/-- The levels of the deepest member. -/
def membersLevels : List (String × Value) → Nat
  | [] => 0
  | (_, v) :: ms => max v.levels (membersLevels ms)

end

mutual

/-- All numbers in a value are integers of 64 bits. -/
def Value.Whole : Value → Prop
  | .number n => n.Whole
  | .array vs => ItemsWhole vs
  | .object ms => MembersWhole ms
  | _ => True

/-- All numbers in the items are integers of 64 bits. -/
def ItemsWhole : List Value → Prop
  | [] => True
  | v :: vs => v.Whole ∧ ItemsWhole vs

/-- All numbers in the members are integers of 64 bits. -/
def MembersWhole : List (String × Value) → Prop
  | [] => True
  | (_, v) :: ms => v.Whole ∧ MembersWhole ms

end

mutual

/-- Whether all numbers in a value are integers of 64 bits can be computed. -/
def decideWhole : (v : Value) → Decidable v.Whole
  | .number n => inferInstanceAs (Decidable n.Whole)
  | .array vs => decideItemsWhole vs
  | .object ms => decideMembersWhole ms
  | .null | .bool _ | .string _ => isTrue trivial

def decideItemsWhole : (vs : List Value) → Decidable (ItemsWhole vs)
  | [] => isTrue trivial
  | v :: vs => @instDecidableAnd _ _ (decideWhole v) (decideItemsWhole vs)

def decideMembersWhole : (ms : List (String × Value)) → Decidable (MembersWhole ms)
  | [] => isTrue trivial
  | (_, v) :: ms => @instDecidableAnd _ _ (decideWhole v) (decideMembersWhole ms)

end

instance : DecidablePred Value.Whole := decideWhole

mutual

/-- The members of all objects in a value are sorted by their keys. -/
def Value.Sorted : Value → Prop
  | .array vs => ItemsSorted vs
  | .object ms => Keyed.Sorted ms ∧ MembersSorted ms
  | _ => True

/-- The members of all objects in the items are sorted. -/
def ItemsSorted : List Value → Prop
  | [] => True
  | v :: vs => v.Sorted ∧ ItemsSorted vs

/-- The members of all objects in the members are sorted. -/
def MembersSorted : List (String × Value) → Prop
  | [] => True
  | (_, v) :: ms => v.Sorted ∧ MembersSorted ms

end

mutual

/-- A value as it is read from its text: the members of objects are inserted one after another. -/
def Value.settled : Value → Value
  | .array vs => .array (itemsSettled vs)
  | .object ms => .object (Keyed.insertAll (membersSettled ms) [])
  | v => v

/-- The items as they are read from their text. -/
def itemsSettled : List Value → List Value
  | [] => []
  | v :: vs => v.settled :: itemsSettled vs

/-- The members as they stand in the text, with each value as it is read. -/
def membersSettled : List (String × Value) → List (String × Value)
  | [] => []
  | (k, v) :: ms => (k, v.settled) :: membersSettled ms

end

theorem itemsWhole_iff : ∀ {vs : List Value}, ItemsWhole vs ↔ ∀ v ∈ vs, v.Whole
  | [] => by simp [ItemsWhole]
  | v :: vs => by rw [ItemsWhole, itemsWhole_iff, List.forall_mem_cons]

theorem membersWhole_iff :
    ∀ {ms : List (String × Value)}, MembersWhole ms ↔ ∀ m ∈ ms, m.2.Whole
  | [] => by simp [MembersWhole]
  | (k, v) :: ms => by rw [MembersWhole, membersWhole_iff, List.forall_mem_cons]

theorem itemsSorted_iff : ∀ {vs : List Value}, ItemsSorted vs ↔ ∀ v ∈ vs, v.Sorted
  | [] => by simp [ItemsSorted]
  | v :: vs => by rw [ItemsSorted, itemsSorted_iff, List.forall_mem_cons]

theorem membersSorted_iff :
    ∀ {ms : List (String × Value)}, MembersSorted ms ↔ ∀ m ∈ ms, m.2.Sorted
  | [] => by simp [MembersSorted]
  | (k, v) :: ms => by rw [MembersSorted, membersSorted_iff, List.forall_mem_cons]

theorem itemsLevels_le {n : Nat} :
    ∀ {vs : List Value}, itemsLevels vs ≤ n ↔ ∀ v ∈ vs, v.levels ≤ n
  | [] => by simp [itemsLevels]
  | v :: vs => by rw [itemsLevels, Nat.max_le, itemsLevels_le, List.forall_mem_cons]

theorem membersLevels_le {n : Nat} :
    ∀ {ms : List (String × Value)}, membersLevels ms ≤ n ↔ ∀ m ∈ ms, m.2.levels ≤ n
  | [] => by simp [membersLevels]
  | (k, v) :: ms => by rw [membersLevels, Nat.max_le, membersLevels_le, List.forall_mem_cons]

theorem itemsSettled_eq_map : ∀ vs : List Value, itemsSettled vs = vs.map Value.settled
  | [] => rfl
  | v :: vs => by rw [itemsSettled, itemsSettled_eq_map vs, List.map_cons]

/-! ## 2. What a text begins with -/

/-- A blank in front is skipped, another character is not. -/
theorem skipSpace_cons {c : Char} (hc : isSpace c = false) (cs : List Char) :
    skipSpace (c :: cs) = c :: cs := by
  rw [skipSpace, List.dropWhile_cons_of_neg (by rw [hc]; exact Bool.false_ne_true)]

/-- A decimal digit is not a character that fails to be one. -/
theorem beq_of_isDecimal {c d : Char} (hc : isDecimal c = true) (hd : isDecimal d = false) :
    (c == d) = false := by
  rw [beq_eq_false_iff_ne]
  rintro rfl
  rw [hc] at hd
  cases hd

/-- The digits are no blanks. -/
theorem isSpace_of_isDecimal {c : Char} (hc : isDecimal c = true) : isSpace c = false := by
  simp only [isSpace, beq_of_isDecimal hc (show isDecimal ' ' = false from rfl),
    beq_of_isDecimal hc (show isDecimal '\t' = false from rfl),
    beq_of_isDecimal hc (show isDecimal '\n' = false from rfl),
    beq_of_isDecimal hc (show isDecimal '\r' = false from rfl), Bool.or_self]

/-- **What a value's text begins with** is no blank and no closing bracket. -/
theorem valueText_eq_cons {v : Value} (h : v.Whole) :
    ∃ c cs, valueText v = c :: cs ∧ isSpace c = false ∧ c ≠ ']' := by
  cases v with
  | null => exact ⟨_, _, rfl, rfl, by decide⟩
  | bool b =>
    cases b with
    | true => exact ⟨_, _, rfl, rfl, by decide⟩
    | false => exact ⟨_, _, rfl, rfl, by decide⟩
  | number n =>
    cases n with
    | integer n =>
      have hends : EndsNumber [] := fun c hc => by cases hc
      rcases numeral_numeralText hends h with ⟨-, cs, htext, -⟩ | ⟨-, c, cs, htext, hc, -⟩
      · exact ⟨'-', cs, htext, rfl, by decide⟩
      · refine ⟨c, cs, htext, isSpace_of_isDecimal hc, ?_⟩
        rintro rfl
        cases hc
    | real x => exact h.elim
  | string s => exact ⟨_, _, rfl, rfl, by decide⟩
  | array vs =>
    cases vs with
    | nil => exact ⟨_, _, rfl, rfl, by decide⟩
    | cons v vs => exact ⟨_, _, rfl, rfl, by decide⟩
  | object ms =>
    cases ms with
    | nil => exact ⟨_, _, rfl, rfl, by decide⟩
    | cons m ms => exact ⟨_, _, rfl, rfl, by decide⟩

/-- What follows an item does not continue a number. -/
theorem endsNumber_itemsText (vs : List Value) (rest : List Char) :
    EndsNumber (itemsText vs ++ rest) := by
  intro c hc
  cases vs with
  | nil =>
    cases hc
    decide
  | cons v vs =>
    cases hc
    decide

/-- What follows a member does not continue a number. -/
theorem endsNumber_membersText (ms : List (String × Value)) (rest : List Char) :
    EndsNumber (membersText ms ++ rest) := by
  intro c hc
  cases ms with
  | nil =>
    cases hc
    decide
  | cons m ms =>
    cases hc
    decide

/-- Every item takes a character, and so does the closing bracket. -/
theorem length_itemsText : ∀ vs : List Value, vs.length < (itemsText vs).length
  | [] => Nat.zero_lt_one
  | v :: vs => by
    have ih := length_itemsText vs
    rw [itemsText, List.length_append, List.length_cons, List.length_cons]
    omega

/-- Every member takes a character, and so does the closing brace. -/
theorem length_membersText : ∀ ms : List (String × Value), ms.length < (membersText ms).length
  | [] => Nat.zero_lt_one
  | (k, v) :: ms => by
    have ih := length_membersText ms
    simp only [membersText, List.length_append, List.length_cons]
    omega

/-! ## 3. What is read by the first character -/

theorem valueWithin_string (depth : Nat) (cs : List Char) :
    valueWithin depth ('"' :: cs) = Reading.as (string cs) .string := by
  cases depth <;> rfl

theorem valueWithin_minus (depth : Nat) (cs : List Char) :
    valueWithin depth ('-' :: cs) = Reading.as (numeral true cs) .number := by
  cases depth <;> rfl

theorem valueWithin_digit {c : Char} (hc : isDecimal c = true) (depth : Nat) (cs : List Char) :
    valueWithin depth (c :: cs) = Reading.as (numeral false (c :: cs)) .number := by
  rw [valueWithin, skipSpace_cons (isSpace_of_isDecimal hc)]
  simp only [beq_of_isDecimal hc (show isDecimal 'n' = false from rfl),
    beq_of_isDecimal hc (show isDecimal 't' = false from rfl),
    beq_of_isDecimal hc (show isDecimal 'f' = false from rfl),
    beq_of_isDecimal hc (show isDecimal '"' = false from rfl),
    beq_of_isDecimal hc (show isDecimal '-' = false from rfl), hc, Bool.false_eq_true, if_false,
    if_true]

theorem valueWithin_array (depth : Nat) (cs : List Char) :
    valueWithin (depth + 1) ('[' :: cs) =
      Reading.as (items (valueWithin depth) true (cs.length + 1) cs) .array := rfl

theorem valueWithin_object (depth : Nat) (cs : List Char) :
    valueWithin (depth + 1) ('{' :: cs) =
      Reading.as (members (valueWithin depth) true (cs.length + 1) [] cs) .object := rfl

/-! ## 4. Items and members -/

section Lists

variable {item : List Char → Reading Value}

/-- Where the next entry of a list begins: behind the opening bracket, or behind a comma.  `opens` says
which characters an entry may begin with. -/
inductive EntryAt (opens : Char → Prop) : (first : Bool) → (cs text : List Char) → Prop where
  | first {cs behind : List Char} {c : Char} (h : skipSpace cs = c :: behind) (hc : opens c) :
      EntryAt opens true cs (c :: behind)
  | more {cs behind text : List Char} {c : Char} (h : skipSpace cs = ',' :: behind)
      (hbehind : skipSpace behind = c :: text) (hc : opens c) : EntryAt opens false cs (c :: text)

/-- Reads one item and those behind it. -/
def itemOn (item : List Char → Reading Value) (steps : Nat) (cs : List Char) :
    Reading (List Value) :=
  Reading.andThen (item cs) fun v rest => Reading.as (items item false steps rest) (v :: ·)

theorem items_end {cs rest : List Char} (h : skipSpace cs = ']' :: rest) (first : Bool)
    (steps : Nat) : items item first (steps + 1) cs = .ok ([], rest) := by
  rw [items, h]
  rfl

theorem items_entry {first : Bool} {cs text : List Char} (h : EntryAt (· ≠ ']') first cs text)
    (steps : Nat) : items item first (steps + 1) cs = itemOn item steps text := by
  rw [items]
  cases h with
  | first h hc =>
    rw [h]
    split
    · rename_i heq
      cases heq
    · rename_i heq
      exact absurd (List.cons.inj heq).1 hc
    · rename_i heq
      cases heq
      rfl
  | more h hbehind hc =>
    rw [h]
    split
    · rename_i heq
      cases heq
    · rename_i heq
      exact absurd (List.cons.inj heq).1 (by decide)
    · rename_i heq
      cases heq
      rw [if_neg Bool.false_ne_true, if_pos (beq_self_eq_true ','), hbehind]
      split
      · rename_i heq
        cases heq
      · rename_i heq
        exact absurd (List.cons.inj heq).1 hc
      · rfl

/-- Reads one member behind the opening quote of its key, and those behind it. -/
def memberOn (item : List Char → Reading Value) (steps : Nat) (read : Keyed Value)
    (cs : List Char) : Reading (Keyed Value) :=
  Reading.andThen (string cs) fun key rest =>
    match skipSpace rest with
    | [] => .error .endInObject
    | ':' :: rest =>
      Reading.andThen (item rest) fun v rest =>
        members item false steps (Keyed.insert key v read) rest
    | _ => .error .expectedColon

theorem memberOn_eq {key : String} {cs rest : List Char}
    (h : string cs = .ok (key, ':' :: rest)) (steps : Nat) (read : Keyed Value) :
    memberOn item steps read cs =
      Reading.andThen (item rest) fun v rest =>
        members item false steps (Keyed.insert key v read) rest := by
  rw [memberOn, h, Reading.andThen, skipSpace_cons rfl]
  rfl

theorem members_end {cs rest : List Char} (h : skipSpace cs = '}' :: rest) (first : Bool)
    (steps : Nat) (read : Keyed Value) :
    members item first (steps + 1) read cs = .ok (read, rest) := by
  rw [members, h]
  rfl

theorem members_entry {first : Bool} {cs text : List Char}
    (h : EntryAt (· = '"') first cs ('"' :: text)) (steps : Nat) (read : Keyed Value) :
    members item first (steps + 1) read cs = memberOn item steps read text := by
  rw [members]
  cases h with
  | first h _ =>
    rw [h]
    rfl
  | more h hbehind _ =>
    rw [h]
    split
    · rename_i heq
      cases heq
    · rename_i heq
      exact absurd (List.cons.inj heq).1 (by decide)
    · rename_i heq
      cases heq
      rw [if_neg Bool.false_ne_true, if_pos (beq_self_eq_true ','), hbehind]
      rfl

end Lists

/-! ## 5. Values -/

mutual

/-- **A value is read back from its text**, in front of any text that does not continue a number … -/
theorem valueWithin_valueText :
    ∀ (v : Value) (depth : Nat) (rest : List Char), v.Whole → v.levels ≤ depth → EndsNumber rest →
      valueWithin depth (valueText v ++ rest) = .ok (v.settled, rest)
  | .null, depth, rest, _, _, _ => by cases depth <;> rfl
  | .bool true, depth, rest, _, _, _ => by cases depth <;> rfl
  | .bool false, depth, rest, _, _, _ => by cases depth <;> rfl
  | .number (.real x), _, _, hwhole, _, _ => hwhole.elim
  | .number (.integer n), depth, rest, hwhole, _, hends => by
    rw [valueText]
    rcases numeral_numeralText hends hwhole with ⟨-, cs, htext, hread⟩ | ⟨-, c, cs, htext, hc, hread⟩
    · rw [htext, List.cons_append, valueWithin_minus, hread]
      rfl
    · rw [htext, List.cons_append, valueWithin_digit hc, ← List.cons_append, hread]
      rfl
  | .string s, depth, rest, _, _, _ => by
    obtain ⟨cs, htext, hread⟩ := string_stringText s rest
    rw [valueText, htext, List.cons_append, valueWithin_string, hread]
    rfl
  | .array [], depth + 1, rest, _, _, _ => by
    rw [valueText, List.cons_append, valueWithin_array, List.singleton_append, items_end rfl]
    rfl
  | .array (v :: vs), depth + 1, rest, ⟨hv, hvs⟩, hlevels, _ => by
    obtain ⟨hlevel, hlevels⟩ := Nat.max_le.mp (Nat.le_of_succ_le_succ hlevels)
    obtain ⟨c, cs, htext, hc, hne⟩ := valueText_eq_cons hv
    have hfirst := valueWithin_valueText v depth (itemsText vs ++ rest) hv hlevel
      (endsNumber_itemsText vs rest)
    have hlength := length_itemsText vs
    rw [valueText, List.cons_append, List.cons_append, List.append_assoc, valueWithin_array]
    rw [htext, List.cons_append] at hfirst ⊢
    rw [items_entry (.first (skipSpace_cons hc _) hne), itemOn, hfirst]
    simp only [Reading.andThen]
    rw [items_itemsText vs depth _ rest hvs hlevels
      (by simp only [List.length_cons, List.length_append]; omega)]
    rfl
  | .object [], depth + 1, rest, _, _, _ => by
    rw [valueText, List.cons_append, valueWithin_object, List.singleton_append, members_end rfl]
    rfl
  | .object ((k, v) :: ms), depth + 1, rest, ⟨hv, hms⟩, hlevels, _ => by
    obtain ⟨hlevel, hlevels⟩ := Nat.max_le.mp (Nat.le_of_succ_le_succ hlevels)
    have hfirst := valueWithin_valueText v depth (membersText ms ++ rest) hv hlevel
      (endsNumber_membersText ms rest)
    obtain ⟨cs, htext, hkey⟩ := string_stringText k (':' :: (valueText v ++ (membersText ms ++ rest)))
    have hlength := length_membersText ms
    rw [valueText, htext]
    simp only [List.cons_append, List.append_assoc]
    rw [valueWithin_object, members_entry (.first rfl rfl), memberOn_eq hkey, hfirst]
    simp only [Reading.andThen]
    rw [members_membersText ms depth _ _ rest hms hlevels
      (by simp only [List.length_cons, List.length_append]; omega)]
    rfl
  | .array _, 0, _, _, hlevels, _ => absurd hlevels (Nat.not_succ_le_zero _)
  | .object _, 0, _, _, hlevels, _ => absurd hlevels (Nat.not_succ_le_zero _)

/-- … so are the items behind the first one … -/
theorem items_itemsText :
    ∀ (vs : List Value) (depth steps : Nat) (rest : List Char), ItemsWhole vs →
      itemsLevels vs ≤ depth → vs.length < steps →
      items (valueWithin depth) false steps (itemsText vs ++ rest) = .ok (itemsSettled vs, rest)
  | [], depth, steps + 1, rest, _, _, _ => by
    rw [itemsText, List.singleton_append, items_end rfl]
    rfl
  | v :: vs, depth, steps + 1, rest, ⟨hv, hvs⟩, hlevels, hsteps => by
    obtain ⟨hlevel, hlevels⟩ := Nat.max_le.mp hlevels
    obtain ⟨c, cs, htext, hc, hne⟩ := valueText_eq_cons hv
    have hfirst := valueWithin_valueText v depth (itemsText vs ++ rest) hv hlevel
      (endsNumber_itemsText vs rest)
    rw [itemsText, List.cons_append, List.cons_append, List.append_assoc]
    rw [htext, List.cons_append] at hfirst ⊢
    rw [items_entry (.more rfl (skipSpace_cons hc _) hne), itemOn, hfirst]
    simp only [Reading.andThen]
    rw [items_itemsText vs depth steps rest hvs hlevels (Nat.lt_of_succ_lt_succ hsteps)]
    rfl

/-- … and the members. -/
theorem members_membersText :
    ∀ (ms : List (String × Value)) (depth steps : Nat) (read : Keyed Value) (rest : List Char),
      MembersWhole ms → membersLevels ms ≤ depth → ms.length < steps →
      members (valueWithin depth) false steps read (membersText ms ++ rest) =
        .ok (Keyed.insertAll (membersSettled ms) read, rest)
  | [], depth, steps + 1, read, rest, _, _, _ => by
    rw [membersText, List.singleton_append, members_end rfl]
    rfl
  | (k, v) :: ms, depth, steps + 1, read, rest, ⟨hv, hms⟩, hlevels, hsteps => by
    obtain ⟨hlevel, hlevels⟩ := Nat.max_le.mp hlevels
    have hfirst := valueWithin_valueText v depth (membersText ms ++ rest) hv hlevel
      (endsNumber_membersText ms rest)
    obtain ⟨cs, htext, hkey⟩ := string_stringText k (':' :: (valueText v ++ (membersText ms ++ rest)))
    rw [membersText, htext]
    simp only [List.cons_append, List.append_assoc]
    rw [members_entry (.more rfl rfl rfl), memberOn_eq hkey, hfirst]
    simp only [Reading.andThen]
    exact members_membersText ms depth steps _ rest hms hlevels (Nat.lt_of_succ_lt_succ hsteps)

end

/-! ## 6. Sorted values -/

mutual

/-- **A value with sorted members is read back as it is** … -/
theorem Value.settled_of_sorted : ∀ {v : Value}, v.Sorted → v.settled = v
  | .null, _ => rfl
  | .bool _, _ => rfl
  | .number _, _ => rfl
  | .string _, _ => rfl
  | .array vs, h => by rw [Value.settled, itemsSettled_of_sorted h]
  | .object ms, ⟨hms, h⟩ => by
    rw [Value.settled, membersSettled_of_sorted h,
      Keyed.insertAll_sorted ms (show Keyed.Sorted ([] ++ ms) from hms), List.nil_append]

/-- … and so are items … -/
theorem itemsSettled_of_sorted : ∀ {vs : List Value}, ItemsSorted vs → itemsSettled vs = vs
  | [], _ => rfl
  | v :: vs, ⟨hv, hvs⟩ => by
    rw [itemsSettled, Value.settled_of_sorted hv, itemsSettled_of_sorted hvs]

/-- … and members, in their order. -/
theorem membersSettled_of_sorted :
    ∀ {ms : List (String × Value)}, MembersSorted ms → membersSettled ms = ms
  | [], _ => rfl
  | (k, v) :: ms, ⟨hv, hms⟩ => by
    rw [membersSettled, Value.settled_of_sorted hv, membersSettled_of_sorted hms]

end

end Shortlist.Json
