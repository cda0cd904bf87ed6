import Shortlist.Proofs.Json.Values

/-!
# What is written

The compact text of a value is one line: it has no control characters at all, as the reader would not
take them inside of a string and the printer puts nothing between the tokens.  Arrays need not be
written as a whole; the texts of the items may be written one by one and put between brackets
afterwards.
-/

namespace Shortlist.Json

/-! ## 1. One line -/

/-- No control characters, line feeds in particular. -/
def Printable (cs : List Char) : Prop := ∀ c ∈ cs, 0x20 ≤ c.toNat

/-- Printable characters have no line feed among them. -/
theorem Printable.newline_notMem {cs : List Char} (h : Printable cs) : '\n' ∉ cs := fun hmem =>
  absurd (h '\n' hmem) (by decide)

@[simp] theorem printable_nil : Printable [] := fun _ hc => absurd hc List.not_mem_nil

@[simp] theorem printable_cons {c : Char} {cs : List Char} :
    Printable (c :: cs) ↔ 0x20 ≤ c.toNat ∧ Printable cs := List.forall_mem_cons

@[simp] theorem printable_append {cs ds : List Char} :
    Printable (cs ++ ds) ↔ Printable cs ∧ Printable ds := List.forall_mem_append

/-- Decimal digits are printable. -/
theorem printable_decimalDigits (n : Nat) : Printable (Number.decimalDigits n) := by
  intro c hc
  have hdigit := isDecimal_of_mem_decimalDigits hc
  have hzero : '0' ≤ c := by
    simp only [isDecimal, Bool.and_eq_true, decide_eq_true_eq] at hdigit
    exact hdigit.1
  exact le_trans (by decide) hzero

/-- The text of an integer is printable. -/
theorem printable_numeralText {n : Numeral} (h : n.Whole) : Printable (numeralText n) := by
  cases n with
  | real x => exact h.elim
  | integer n =>
    rw [numeralText, printable_append]
    refine ⟨?_, printable_decimalDigits _⟩
    split <;> simp

/-- A control character is written with printable ones, and any other character is one. -/
theorem printable_escaped (c : Char) : Printable (escaped c) := by
  have hdigits : ∀ n < 0x20, 0x20 ≤ (hexDigit (n / 16)).toNat ∧ 0x20 ≤ (hexDigit (n % 16)).toNat := by
    decide
  unfold escaped
  split_ifs with _ _ _ _ _ _ _ hcontrol
  rotate_left 7
  · simpa using hdigits c.toNat hcontrol
  · simpa using hcontrol
  all_goals simp

/-- The text of a string is printable. -/
theorem printable_stringText (s : String) : Printable (stringText s) := by
  rw [stringText, printable_append, printable_cons]
  refine ⟨⟨by decide, fun d hd => ?_⟩, by simp⟩
  obtain ⟨c, -, hd⟩ := List.mem_flatMap.mp hd
  exact printable_escaped c d hd

mutual

/-- **A value is written on one line.** -/
theorem printable_valueText : ∀ v : Value, v.Whole → Printable (valueText v)
  | .null, _ => by simp [valueText]
  | .bool true, _ => by simp [valueText]
  | .bool false, _ => by simp [valueText]
  | .number n, h => printable_numeralText h
  | .string s, _ => printable_stringText s
  | .array [], _ => by simp [valueText]
  | .array (v :: vs), h => by
    simpa [valueText] using ⟨printable_valueText v h.1, printable_itemsText vs h.2⟩
  | .object [], _ => by simp [valueText]
  | .object ((k, v) :: ms), h => by
    simpa [valueText] using
      ⟨printable_stringText k, printable_valueText v h.1, printable_membersText ms h.2⟩

theorem printable_itemsText : ∀ vs : List Value, ItemsWhole vs → Printable (itemsText vs)
  | [], _ => by simp [itemsText]
  | v :: vs, h => by
    simpa [itemsText] using ⟨printable_valueText v h.1, printable_itemsText vs h.2⟩

theorem printable_membersText :
    ∀ ms : List (String × Value), MembersWhole ms → Printable (membersText ms)
  | [], _ => by simp [membersText]
  | (k, v) :: ms, h => by
    simpa [membersText] using
      ⟨printable_stringText k, printable_valueText v h.1, printable_membersText ms h.2⟩

end

/-! ## 2. Arrays, item by item -/

/-- The items behind the first one, with the commas in front of them. -/
theorem intercalate_itemsText : ∀ (v : Value) (vs : List Value),
    valueText v ++ itemsText vs = [','].intercalate ((v :: vs).map valueText) ++ [']']
  | v, [] => by simp [itemsText]
  | v, w :: vs => by
    rw [List.map_cons, List.map_cons, List.intercalate_cons_cons, ← List.map_cons,
      List.append_assoc, ← intercalate_itemsText w vs]
    simp [itemsText]

/-- **The text of an array** is made of the texts of its items. -/
theorem arrayText_eq : ∀ vs : List Value,
    valueText (.array vs) = '[' :: [','].intercalate (vs.map valueText) ++ [']']
  | [] => rfl
  | v :: vs => by
    rw [valueText, List.cons_append, List.cons_append, intercalate_itemsText]

end Shortlist.Json
