import Shortlist.Json.Printer
import Shortlist.Json.Reader

/-!
# Integers and strings read back

What is written for an integer of 64 bits or for a string is read back as the same integer or string,
whatever text stands behind it.  An integer needs one condition on that text, since a number ends
only where something else begins: the text must not go on with a digit, a point or an exponent.
-/

namespace Shortlist.Json

open Shortlist.Number

/-! ## 1. Digits -/

/-- A text that does not continue an integer. -/
def EndsNumber (rest : List Char) : Prop :=
  ∀ c ∈ rest.head?, isDecimal c = false ∧ c ≠ '.' ∧ c ≠ 'e' ∧ c ≠ 'E'

theorem EndsNumber.startsWithDigit {rest : List Char} (h : EndsNumber rest) :
    startsWithDigit rest = false := by
  cases rest with
  | nil => rfl
  | cons c rest => exact (h c rfl).1

/-- The digits of a number in base ten are decimal digits. -/
theorem isDecimal_of_mem_decimalDigits {n : Nat} {c : Char} (hc : c ∈ decimalDigits n) :
    isDecimal c = true := by
  have hdigit := Nat.isDigit_of_mem_toDigits (by decide) (by decide) hc
  rw [Char.isDigit, Bool.and_eq_true, decide_eq_true_eq, decide_eq_true_eq] at hdigit
  rw [isDecimal, Bool.and_eq_true, decide_eq_true_eq, decide_eq_true_eq]
  exact hdigit

/-- Digits are absorbed for as long as the whole number fits into 64 bits. -/
theorem absorb_append {rest : List Char} (hrest : startsWithDigit rest = false) :
    ∀ {cs : List Char} {significand : Nat}, (∀ c ∈ cs, isDecimal c = true) →
      Nat.ofDigitChars 10 cs significand ≤ maxSignificand →
      absorb significand (cs ++ rest) = (Nat.ofDigitChars 10 cs significand, rest)
  | [], significand, _, _ => by
    cases rest with
    | nil => rfl
    | cons c rest =>
      have hc : isDecimal c = false := hrest
      rw [List.nil_append, absorb, hc]
      rfl
  | c :: cs, significand, hcs, hle => by
    obtain ⟨hc, hcs⟩ := List.forall_mem_cons.mp hcs
    have hvalue : Nat.ofDigitChars 10 (c :: cs) significand =
        Nat.ofDigitChars 10 cs (10 * significand + digitValue c) := Nat.ofDigitChars_cons
    rw [hvalue] at hle ⊢
    have hfits : 10 * significand + digitValue c ≤ maxSignificand := by
      rw [Nat.ofDigitChars_eq_ofDigitChars_zero] at hle
      have hpos : 1 ≤ 10 ^ cs.length := Nat.one_le_pow _ _ (by decide)
      have hmul := Nat.mul_le_mul_right (10 * significand + digitValue c) hpos
      omega
    rw [List.cons_append, absorb, hc, if_pos (by simp [hfits])]
    exact absorb_append hrest hcs hle

/-- A number above zero does not begin with a zero. -/
theorem decimalDigits_eq_cons {n : Nat} (hn : 0 < n) :
    ∃ c cs, decimalDigits n = c :: cs ∧ c ≠ '0' := by
  induction n using Nat.strongRecOn with
  | ind n ih =>
    rw [decimalDigits, Nat.toDigits_eq_if (by decide)]
    split
    · refine ⟨_, [], rfl, ?_⟩
      rw [Ne, Nat.digitChar_eq_zero]
      omega
    · obtain ⟨c, cs, heq, hc⟩ := ih (n / 10) (by omega) (by omega)
      rw [decimalDigits] at heq
      rw [heq]
      exact ⟨c, _, rfl, hc⟩

/-! ## 2. Integers -/

/-- An integer that is followed by nothing of a number is just that integer. -/
theorem afterInteger_of_ends {rest : List Char} (h : EndsNumber rest) (negative : Bool)
    (significand : Nat) :
    afterInteger negative significand rest = .ok (numeralOf negative significand, rest) := by
  unfold afterInteger
  split
  · exact absurd rfl (h '.' rfl).2.1
  · exact absurd rfl (h 'e' rfl).2.2.1
  · exact absurd rfl (h 'E' rfl).2.2.2
  · rfl

/-- **The digits of a number of 64 bits are read as that number.** -/
theorem numeral_decimalDigits {rest : List Char} (h : EndsNumber rest) {n : Nat}
    (hn : n ≤ maxSignificand) (negative : Bool) :
    numeral negative (decimalDigits n ++ rest) = .ok (numeralOf negative n, rest) := by
  have hstarts := h.startsWithDigit
  rcases Nat.eq_zero_or_pos n with rfl | hpos
  · have hzero : decimalDigits 0 = ['0'] := Nat.toDigits_zero 10
    rw [hzero, List.singleton_append, numeral, hstarts]
    exact afterInteger_of_ends h negative 0
  · obtain ⟨c, cs, hdigits, hc⟩ := decimalDigits_eq_cons hpos
    have hall : ∀ d ∈ c :: cs, isDecimal d = true := fun d hd =>
      isDecimal_of_mem_decimalDigits (hdigits ▸ hd)
    obtain ⟨hfirst, hcs⟩ := List.forall_mem_cons.mp hall
    have hvalue : Nat.ofDigitChars 10 cs (digitValue c) = n := by
      have hread := Nat.ofDigitChars_ten_toDigits (n := n)
      rw [← decimalDigits, hdigits, Nat.ofDigitChars_cons, Nat.mul_zero, Nat.zero_add] at hread
      exact hread
    have habsorb := absorb_append hstarts hcs (hvalue.symm ▸ hn)
    rw [hdigits, List.cons_append, numeral]
    · simp only [hfirst, habsorb, hvalue, hstarts]
      exact afterInteger_of_ends h negative n
    · exact hc

/-- Whether a number is an integer of 64 bits, with or without a sign. -/
def Numeral.Whole : Numeral → Prop
  | .integer n => -(twoTo 63 : Int) ≤ n ∧ n ≤ maxSignificand
  | .real _ => False

instance : DecidablePred Numeral.Whole
  | .integer _ => inferInstanceAs (Decidable (_ ∧ _))
  | .real _ => inferInstanceAs (Decidable False)

/-- **The text of an integer is read as that integer.**  What is read first is the sign, if there is
one. -/
theorem numeral_numeralText {rest : List Char} (h : EndsNumber rest) {n : Int}
    (hn : (Numeral.integer n).Whole) :
    (n < 0 ∧ ∃ cs, numeralText (.integer n) = '-' :: cs ∧
      numeral true (cs ++ rest) = .ok (.integer n, rest)) ∨
    (0 ≤ n ∧ ∃ c cs, numeralText (.integer n) = c :: cs ∧ isDecimal c = true ∧
      numeral false (c :: cs ++ rest) = .ok (.integer n, rest)) := by
  obtain ⟨hlow, hhigh⟩ := hn
  have hsigned : twoTo 63 ≤ maxSignificand := by decide
  rcases Int.lt_or_le n 0 with hneg | hpos
  · refine Or.inl ⟨hneg, decimalDigits n.natAbs, by rw [numeralText, if_pos hneg]; rfl, ?_⟩
    have hread := numeral_decimalDigits h (n := n.natAbs) (by omega) true
    have hzero : (n.natAbs == 0) = false := by simp; omega
    have hfits : ¬ twoTo 63 < n.natAbs := by omega
    have hback : -(n.natAbs : Int) = n := by omega
    rw [hread, numeralOf, hzero]
    simp only [Bool.not_true, Bool.false_or, Bool.false_eq_true, if_false, decide_eq_true_eq,
      if_neg hfits, hback]
  · have hread := numeral_decimalDigits h (n := n.natAbs) (by omega) false
    have hback : (n.natAbs : Int) = n := by omega
    obtain ⟨c, cs, hdigits⟩ : ∃ c cs, decimalDigits n.natAbs = c :: cs :=
      List.exists_cons_of_ne_nil Nat.toDigits_ne_nil
    have htext : numeralText (.integer n) = c :: cs := by
      rw [numeralText, if_neg (Int.not_lt.mpr hpos), List.nil_append, hdigits]
    refine Or.inr ⟨hpos, c, cs, htext, ?_, ?_⟩
    · exact isDecimal_of_mem_decimalDigits (hdigits ▸ List.mem_cons_self)
    · rw [← hdigits, hread, numeralOf]
      simp only [Bool.not_false, if_true, hback]

/-! ## 3. Strings -/

/-- The two digits of a control character are read as its number. -/
theorem hexUnit_of_control {n : Nat} (hn : n < 0x20) (rest : List Char) :
    hexUnit ('0' :: '0' :: hexDigit (n / 16) :: hexDigit (n % 16) :: rest) = .ok (n, rest) := by
  have hread : ∀ n < 0x20,
      Text.Utf8.byteCount ['0', '0', hexDigit (n / 16), hexDigit (n % 16)] = 4 ∧
        hexNumber? ['0', '0', hexDigit (n / 16), hexDigit (n % 16)] = some n := by
    decide
  obtain ⟨hbytes, hnumber⟩ := hread n hn
  have htake : ('0' :: '0' :: hexDigit (n / 16) :: hexDigit (n % 16) :: rest).take 4 =
      ['0', '0', hexDigit (n / 16), hexDigit (n % 16)] := rfl
  have hlength : ¬ ('0' :: '0' :: hexDigit (n / 16) :: hexDigit (n % 16) :: rest).length < 4 := by
    simp
  rw [hexUnit, htake, hbytes, if_neg (Nat.lt_irrefl 4), if_neg hlength, hnumber]
  rfl

/-- A control character is read back from its escape. -/
theorem escape_control {c : Char} (hc : c.toNat < 0x20) (rest : List Char) :
    escape ('u' :: '0' :: '0' :: hexDigit (c.toNat / 16) :: hexDigit (c.toNat % 16) :: rest) =
      .ok (c, rest) := by
  rw [escape, unicodeEscape, hexUnit_of_control hc, Reading.andThen]
  have hlow : ¬ 0xDC00 ≤ c.toNat := by omega
  have hhigh : ¬ 0xD800 ≤ c.toNat := by omega
  simp only [hlow, hhigh, decide_false, Bool.false_and, Bool.false_eq_true, if_false,
    Char.ofNat_toNat]

/-- **A character of a string is read back in one step**, however it is written. -/
theorem stringBody_escaped (read : List Char) (c : Char) (steps : Nat) (rest : List Char) :
    stringBody read (steps + 1) (escaped c ++ rest) = stringBody (c :: read) steps rest := by
  unfold escaped
  repeat' split
  -- seven characters have an escape of one letter
  all_goals try (rename_i h; rw [eq_of_beq h]; rfl)
  · rename_i hcontrol
    rw [List.cons_append, stringBody]
    simp only [List.cons_append, List.nil_append, escape_control hcontrol]
    rfl
  · rename_i hquote hslash _ _ _ _ _ hcontrol
    rw [List.singleton_append, stringBody, if_neg hquote, if_neg hslash, if_neg hcontrol]

/-- The characters of a string are read back up to the quote. -/
theorem stringBody_flatMap (rest : List Char) :
    ∀ (cs read : List Char) (steps : Nat), cs.length < steps →
      stringBody read steps (cs.flatMap escaped ++ '"' :: rest) =
        .ok (String.ofList (read.reverse ++ cs), rest)
  | [], read, steps + 1, _ => by
    rw [List.append_nil]
    rfl
  | c :: cs, read, steps + 1, hsteps => by
    rw [List.flatMap_cons, List.append_assoc, stringBody_escaped,
      stringBody_flatMap rest cs (c :: read) steps (Nat.lt_of_succ_lt_succ hsteps),
      List.reverse_cons, List.append_assoc, List.singleton_append]

/-- What is written for a character is at least one character. -/
theorem length_flatMap_escaped (cs : List Char) : cs.length ≤ (cs.flatMap escaped).length := by
  induction cs with
  | nil => exact Nat.le_refl _
  | cons c cs ih =>
    have hone : 1 ≤ (escaped c).length := by
      unfold escaped
      repeat' split
      all_goals simp
    rw [List.flatMap_cons, List.length_append, List.length_cons]
    omega

/-- **A string is read back behind its opening quote.** -/
theorem string_stringText (s : String) (rest : List Char) :
    ∃ cs, stringText s = '"' :: cs ∧ string (cs ++ rest) = .ok (s, rest) := by
  refine ⟨s.toList.flatMap escaped ++ ['"'], rfl, ?_⟩
  have hlength := length_flatMap_escaped s.toList
  rw [string, List.append_assoc, List.singleton_append, stringBody_flatMap rest s.toList []]
  · rw [List.reverse_nil, List.nil_append, String.ofList_toList]
  · rw [List.length_append, List.length_cons]
    omega

end Shortlist.Json
