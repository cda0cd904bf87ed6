import Shortlist.Proofs.Json.Reading
import Shortlist.Proofs.Text.Runs

/-!
# Texts that show where they end

A string, a word, an array and an object end at a character of their own, so what is read of them is
the same whatever text stands behind: `Delimited`.  A number has no such character.  It ends in front
of the first character that is no part of it, and more text makes no difference only if that character
is there: `Stopped`.  Inside of an array or an object it always is, since the closing bracket is still to
come, so an array is delimited although its items need not be.

The readers of strings and of lists count their steps by the length of the text.  A longer text allows
more of them, so the statements for the inductions are about two readers, the second of which may go
further (`Carries`).
-/

namespace Shortlist.Json

open Shortlist.Number

variable {α β : Type}

/-! ## 1. Readers in front of more text -/

/-- Whatever the first reader reads from a text, the second one reads from every text that begins with
it.  What is left behind is no longer than the text. -/
def Carries (read wide : List Char → Reading α) : Prop :=
  ∀ ⦃cs : List Char⦄ ⦃a : α⦄ ⦃rest : List Char⦄, read cs = .ok (a, rest) →
    rest.length ≤ cs.length ∧ ∀ more, wide (cs ++ more) = .ok (a, rest ++ more)

/-- What is read does not depend on the text behind it. -/
abbrev Delimited (read : List Char → Reading α) : Prop := Carries read read

/-- What is read depends on the text behind it only if nothing was left there. -/
def Stopped (read : List Char → Reading α) : Prop :=
  ∀ ⦃cs : List Char⦄ ⦃a : α⦄ ⦃rest : List Char⦄, read cs = .ok (a, rest) →
    rest.length ≤ cs.length ∧ (rest ≠ [] → ∀ more, read (cs ++ more) = .ok (a, rest ++ more))

theorem Delimited.stopped {read : List Char → Reading α} (h : Delimited read) : Stopped read := by
  intro cs a rest hread
  obtain ⟨hlength, hmore⟩ := h hread
  exact ⟨hlength, fun _ => hmore⟩

/-- If something is left, there was something to read from. -/
theorem Stopped.ne_nil {read : List Char → Reading α} (h : Stopped read) {cs rest : List Char} {a : α}
    (hread : read cs = .ok (a, rest)) (hrest : rest ≠ []) : cs ≠ [] := by
  rintro rfl
  exact hrest (List.length_eq_zero_iff.mp (Nat.le_zero.mp (h hread).1))

/-- A reader that goes on like another one at the end of a text. -/
theorem Stopped.nil {read inner : List Char → Reading α} (h : Stopped inner) (heq : read [] = inner [])
    {rest : List Char} {a : α} (hread : read [] = .ok (a, rest)) :
    rest.length ≤ ([] : List Char).length ∧
      (rest ≠ [] → ∀ more, read ([] ++ more) = .ok (a, rest ++ more)) := by
  rw [heq] at hread
  exact ⟨(h hread).1, fun hrest => absurd rfl (h.ne_nil hread hrest)⟩

/-- A reader that goes by the first character, and leaves what is behind it to another reader. -/
theorem Stopped.behind {read inner : List Char → Reading α} (h : Stopped inner) {c : Char}
    (heq : ∀ cs, read (c :: cs) = inner cs) {cs rest : List Char} {a : α}
    (hread : read (c :: cs) = .ok (a, rest)) :
    rest.length ≤ (c :: cs).length ∧
      (rest ≠ [] → ∀ more, read (c :: cs ++ more) = .ok (a, rest ++ more)) := by
  rw [heq] at hread
  obtain ⟨hle, hmore⟩ := h hread
  refine ⟨Nat.le_succ_of_le hle, fun hrest more => ?_⟩
  rw [List.cons_append, heq, hmore hrest]

/-- A reader that goes by the first character, and leaves the whole text to another reader. -/
theorem Stopped.whole {read inner : List Char → Reading α} (h : Stopped inner) {c : Char}
    (heq : ∀ cs, read (c :: cs) = inner (c :: cs)) {cs rest : List Char} {a : α}
    (hread : read (c :: cs) = .ok (a, rest)) :
    rest.length ≤ (c :: cs).length ∧
      (rest ≠ [] → ∀ more, read (c :: cs ++ more) = .ok (a, rest ++ more)) := by
  rw [heq] at hread
  obtain ⟨hle, hmore⟩ := h hread
  refine ⟨hle, fun hrest more => ?_⟩
  rw [List.cons_append, heq, ← List.cons_append, hmore hrest]

/-- One reader after another. -/
theorem Carries.andThen {read wide : List Char → Reading α} {next further : α → List Char → Reading β}
    (h : Carries read wide) (hnext : ∀ a, Carries (next a) (further a)) :
    Carries (fun cs => (read cs).andThen next) fun cs => (wide cs).andThen further := by
  intro cs b rest hread
  obtain ⟨a, behind, hfirst, hsecond⟩ := Reading.of_andThen hread
  obtain ⟨hle, hmore⟩ := h hfirst
  obtain ⟨hbehind, hrest⟩ := hnext a hsecond
  refine ⟨hbehind.trans hle, fun more => ?_⟩
  simp only [hmore, Reading.andThen, hrest]

/-- **A reader that only stops, in front of one that needs more**, is stopped where that one begins. -/
theorem Stopped.andThen {read : List Char → Reading α} {next further : α → List Char → Reading β}
    (h : Stopped read) (hnext : ∀ a, Carries (next a) (further a))
    (hnil : ∀ a b rest, next a [] ≠ .ok (b, rest)) :
    Carries (fun cs => (read cs).andThen next) fun cs => (read cs).andThen further := by
  intro cs b rest hread
  obtain ⟨a, behind, hfirst, hsecond⟩ := Reading.of_andThen hread
  have hne : behind ≠ [] := by
    rintro rfl
    exact hnil a b rest hsecond
  obtain ⟨hle, hmore⟩ := h hfirst
  obtain ⟨hbehind, hrest⟩ := hnext a hsecond
  refine ⟨hbehind.trans hle, fun more => ?_⟩
  simp only [hmore hne, Reading.andThen, hrest]

theorem Carries.as {read wide : List Char → Reading α} (h : Carries read wide) (f : α → β) :
    Carries (fun cs => (read cs).as f) fun cs => (wide cs).as f :=
  h.andThen fun a cs b rest hread => by
    cases hread
    exact ⟨Nat.le_refl _, fun _ => rfl⟩

theorem Stopped.as {read : List Char → Reading α} (h : Stopped read) (f : α → β) :
    Stopped fun cs => (read cs).as f := by
  intro cs b rest hread
  obtain ⟨a, hfirst, rfl⟩ := Reading.of_as hread
  obtain ⟨hle, hmore⟩ := h hfirst
  refine ⟨hle, fun hne more => ?_⟩
  simp only [hmore hne more]
  rfl

/-- A value without any text is delimited. -/
theorem delimited_done (a : α) : Delimited fun cs => .ok (a, cs) := by
  intro cs b rest h
  cases h
  exact ⟨Nat.le_refl _, fun _ => rfl⟩

/-- Nothing is read where there is a fault. -/
theorem delimited_fault (fault : Fault) : Delimited fun _ => (.error fault : Reading α) := by
  intro cs a rest h
  cases h

/-- One of two readers. -/
theorem Delimited.choose {read other : List Char → Reading α} {condition : Prop}
    [Decidable condition] (h : Delimited read) (hother : Delimited other) :
    Delimited fun cs => if condition then read cs else other cs := by
  by_cases hc : condition
  · simpa only [if_pos hc] using h
  · simpa only [if_neg hc] using hother

/-- A reader whose steps are counted by the length of the text. -/
theorem delimited_of_steps {read : Nat → List Char → Reading α}
    (h : ∀ {steps further : Nat}, steps ≤ further → Carries (read steps) (read further))
    (extra : Nat) : Delimited fun cs => read (cs.length + extra) cs := by
  intro cs a rest hread
  obtain ⟨hle, -⟩ := h (Nat.le_refl _) hread
  refine ⟨hle, fun more => ?_⟩
  have hlonger : cs.length + extra ≤ (cs ++ more).length + extra := by
    rw [List.length_append]
    omega
  exact (h hlonger hread).2 more

/-- Blanks in front of a character are skipped as well with more text behind it. -/
theorem skipSpace_of_found {cs behind : List Char} {c : Char} (h : skipSpace cs = c :: behind)
    (more : List Char) : skipSpace (cs ++ more) = c :: (behind ++ more) :=
  (Text.while_append_of_found h more).2

/-- Behind the first character there is less than the whole text. -/
theorem length_of_found {cs behind : List Char} {c : Char} (h : skipSpace cs = c :: behind) :
    behind.length < cs.length :=
  Text.length_lt_of_found h

/-! ## 2. Words and strings -/

/-- A word is over with its last letter. -/
theorem delimited_word (result : Value) : ∀ letters, Delimited (word result letters)
  | [], cs, v, rest, h => by
    cases h
    exact ⟨Nat.le_refl _, fun _ => rfl⟩
  | _ :: _, [], v, rest, h => by cases h
  | l :: letters, c :: cs, v, rest, h => by
    rw [word] at h
    split_ifs at h with hc
    obtain ⟨hle, hmore⟩ := delimited_word result letters h
    refine ⟨Nat.le_succ_of_le hle, fun more => ?_⟩
    rw [List.cons_append, word, if_pos hc, hmore]

/-- The digits of an escape are four characters. -/
theorem delimited_hexUnit : Delimited hexUnit := by
  intro cs n rest h
  rw [hexUnit] at h
  split_ifs at h with hbytes hshort
  have hfour : 4 ≤ cs.length := Nat.not_lt.mp hshort
  split at h
  · rename_i m hm
    cases h
    refine ⟨?_, fun more => ?_⟩
    · rw [List.length_drop]
      exact Nat.sub_le _ _
    · have hlong : ¬ (cs ++ more).length < 4 := by
        rw [List.length_append]
        omega
      rw [hexUnit, List.take_append_of_le_length hfour, if_neg hbytes, if_neg hlong, hm,
        List.drop_append_of_le_length hfour]
  · cases h

/-- The second half of a pair of surrogates is over with its digits. -/
theorem delimited_trailingSurrogate (leading : Nat) : Delimited (trailingSurrogate leading) := by
  intro cs d rest h
  unfold trailingSurrogate at h
  split at h
  · cases h
  · cases h
  · rename_i digits
    obtain ⟨hle, hmore⟩ := delimited_hexUnit.andThen
      (fun _ => (delimited_fault .loneSurrogate).choose (delimited_done _)) h
    refine ⟨hle.trans ((Nat.le_succ _).trans (Nat.le_succ _)), fun more => ?_⟩
    exact hmore more
  · cases h

theorem delimited_unicodeEscape : Delimited unicodeEscape :=
  delimited_hexUnit.andThen fun n =>
    (delimited_fault .loneSurrogate).choose
      ((delimited_trailingSurrogate n).choose (delimited_done _))

/-- An escape shows by its first letter how long it is. -/
theorem delimited_escape : Delimited escape := by
  intro cs d rest h
  unfold escape at h
  split at h
  case h_10 cs =>
    obtain ⟨hle, hmore⟩ := delimited_unicodeEscape h
    exact ⟨Nat.le_succ_of_le hle, hmore⟩
  all_goals
    cases h
    try exact ⟨Nat.le_succ _, fun _ => rfl⟩

/-- The characters of a string are over with the closing quote. -/
theorem carries_stringBody :
    ∀ {steps further : Nat} (read : List Char), steps ≤ further →
      Carries (stringBody read steps) (stringBody read further)
  | 0, _, _, _, cs, _, _, h => by cases h
  | steps + 1, further + 1, read, hle, [], _, _, h => by cases h
  | steps + 1, further + 1, read, hle, c :: cs, s, rest, h => by
    have ih := fun read => carries_stringBody read (Nat.le_of_succ_le_succ hle)
    rw [stringBody] at h
    split_ifs at h with hquote hslash hcontrol
    · cases h
      refine ⟨Nat.le_succ _, fun more => ?_⟩
      rw [List.cons_append, stringBody, if_pos hquote]
    · split at h
      · rename_i d behind hescape
        obtain ⟨hbehind, hescaped⟩ := delimited_escape hescape
        obtain ⟨hrest, hmore⟩ := ih _ h
        refine ⟨Nat.le_succ_of_le (hrest.trans hbehind), fun more => ?_⟩
        rw [List.cons_append, stringBody, if_neg hquote, if_pos hslash, hescaped]
        exact hmore more
      · cases h
    · obtain ⟨hrest, hmore⟩ := ih _ h
      refine ⟨Nat.le_succ_of_le hrest, fun more => ?_⟩
      rw [List.cons_append, stringBody, if_neg hquote, if_neg hslash, if_neg hcontrol, hmore]

/-- **A string is delimited** by its quotes. -/
theorem delimited_string : Delimited string :=
  delimited_of_steps (carries_stringBody []) 0

/-! ## 3. Numbers -/

/-- Digits that are absorbed up to another character are so in front of more text. -/
theorem absorb_more : ∀ {cs : List Char} {significand : Nat}, (absorb significand cs).2 ≠ [] →
    ∀ more, absorb significand (cs ++ more) =
      ((absorb significand cs).1, (absorb significand cs).2 ++ more)
  | [], _, h, _ => absurd rfl h
  | c :: cs, significand, h, more => by
    rw [List.cons_append, absorb, absorb]
    rw [absorb] at h
    split_ifs at h ⊢
    · exact absorb_more h more
    · rfl

theorem length_absorb : ∀ {cs : List Char} {significand : Nat},
    (absorb significand cs).2.length ≤ cs.length
  | [], _ => Nat.le_refl _
  | c :: cs, significand => by
    rw [absorb]
    split_ifs
    · exact Nat.le_succ_of_le length_absorb
    · exact Nat.le_refl _

theorem startsWithDigit_append {cs : List Char} (h : cs ≠ []) (more : List Char) :
    startsWithDigit (cs ++ more) = startsWithDigit cs := by
  cases cs with
  | nil => exact absurd rfl h
  | cons c cs => rfl

/-- The number that was read needs no further text. -/
theorem delimited_realOf (negative : Bool) (significand : Nat) (exponent : Int) :
    Delimited (realOf negative significand exponent) := by
  unfold realOf
  cases scale significand exponent with
  | ok x => exact delimited_done _
  | error fault => exact delimited_fault fault

section Numbers

variable (negative : Bool) (significand : Nat) (exponent : Int)

/-- The number with an exponent that was read. -/
def exponentOf (down : Bool) (written : Nat) (rest : List Char) : Reading Numeral :=
  if maxExponent < written then
    if significand != 0 && !down then .error .numberOutOfRange
    else .ok (.real (.finite negative 0), rest)
  else realOf negative significand (if down then exponent - written else exponent + written) rest

/-- Reads the digits of an exponent behind its sign. -/
def exponentDigits (down : Bool) : List Char → Reading Numeral
  | [] => .error .endInValue
  | c :: cs =>
    if !isDecimal c then .error .invalidNumber
    else exponentOf negative significand exponent down
      (natOfDigits ((c :: cs).takeWhile isDecimal)) ((c :: cs).dropWhile isDecimal)

theorem delimited_exponentOf (down : Bool) (written : Nat) :
    Delimited (exponentOf negative significand exponent down written) :=
  ((delimited_fault _).choose (delimited_done _)).choose (delimited_realOf _ _ _)

/-- An exponent stops in front of what is not a digit. -/
theorem stopped_exponentDigits (down : Bool) :
    Stopped (exponentDigits negative significand exponent down)
  | [], _, _, h => by cases h
  | c :: cs, n, rest, h => by
    rw [exponentDigits] at h
    split_ifs at h with hc
    have hdelimited := delimited_exponentOf negative significand exponent down
    obtain ⟨hle, hmore⟩ := hdelimited _ h
    refine ⟨hle.trans (List.length_dropWhile_le _ _), fun hrest more => ?_⟩
    have hleft := (hdelimited _).stopped.ne_nil h hrest
    obtain ⟨htake, hdrop⟩ := Text.while_append_of_left hleft more
    rw [List.cons_append] at htake hdrop ⊢
    rw [exponentDigits, if_neg hc, htake, hdrop, hmore]

theorem exponentPart_cons (c : Char) (cs : List Char) :
    exponentPart negative significand exponent (c :: cs) =
      if c = '+' then exponentDigits negative significand exponent false cs
      else if c = '-' then exponentDigits negative significand exponent true cs
      else exponentDigits negative significand exponent false (c :: cs) := by
  split_ifs with hplus hminus
  · rw [hplus]
    cases cs <;> rfl
  · rw [hminus]
    cases cs <;> rfl
  · simp [exponentPart, exponentDigits, exponentOf, hplus, hminus]

/-- So does one with a sign. -/
theorem stopped_exponentPart : Stopped (exponentPart negative significand exponent)
  | [], _, _, h => by cases h
  | c :: cs, n, rest, h => by
    have hdigits := stopped_exponentDigits negative significand exponent
    by_cases hplus : c = '+'
    · exact (hdigits false).behind (fun cs => by rw [exponentPart_cons, if_pos hplus]) h
    by_cases hminus : c = '-'
    · exact (hdigits true).behind
        (fun cs => by rw [exponentPart_cons, if_neg hplus, if_pos hminus]) h
    exact (hdigits false).whole
      (fun cs => by rw [exponentPart_cons, if_neg hplus, if_neg hminus]) h

theorem afterDigits_cons (c : Char) (cs : List Char) :
    afterDigits negative significand exponent (c :: cs) =
      if c = 'e' ∨ c = 'E' then exponentPart negative significand exponent cs
      else realOf negative significand exponent (c :: cs) := by
  split_ifs with hc
  · rcases hc with rfl | rfl
    · rfl
    · rfl
  · rw [not_or] at hc
    simp [afterDigits, hc]

theorem stopped_afterDigits : Stopped (afterDigits negative significand exponent)
  | [], _, _, h => (delimited_realOf negative significand exponent).stopped.nil (by rfl) h
  | c :: cs, n, rest, h => by
    by_cases hc : c = 'e' ∨ c = 'E'
    · exact (stopped_exponentPart negative significand exponent).behind
        (fun cs => by rw [afterDigits_cons, if_pos hc]) h
    · exact (delimited_realOf negative significand exponent).stopped.whole
        (fun cs => by rw [afterDigits_cons, if_neg hc]) h

theorem fractionPart_eq (cs : List Char) :
    fractionPart negative significand exponent cs =
      if startsWithDigit (absorb significand cs).2 then
        afterDigits negative (absorb significand cs).1
          (exponent - (cs.length - (absorb significand cs).2.length : Nat))
          ((absorb significand cs).2.dropWhile isDecimal)
      else if cs.length - (absorb significand cs).2.length == 0 then
        .error (if (absorb significand cs).2.isEmpty then .endInValue else .invalidNumber)
      else afterDigits negative (absorb significand cs).1
        (exponent - (cs.length - (absorb significand cs).2.length : Nat))
        (absorb significand cs).2 :=
  rfl

/-- The digits behind a point are counted by what is left behind them, which more text makes longer by
as much as it makes the whole. -/
theorem stopped_fractionPart : Stopped (fractionPart negative significand exponent) := by
  intro cs n rest h
  have hplaces : ∀ more : List Char,
      (cs ++ more).length - ((absorb significand cs).2 ++ more).length =
        cs.length - (absorb significand cs).2.length := by
    intro more
    rw [List.length_append, List.length_append, Nat.add_sub_add_right]
  have hdigits := stopped_afterDigits negative (absorb significand cs).1
    (exponent - (cs.length - (absorb significand cs).2.length : Nat))
  rw [fractionPart_eq] at h
  split_ifs at h with hlong hnone
  · obtain ⟨hle, hmore⟩ := hdigits h
    have hbehind := List.length_dropWhile_le isDecimal (absorb significand cs).2
    refine ⟨(hle.trans hbehind).trans length_absorb, fun hrest more => ?_⟩
    have hleft := hdigits.ne_nil h hrest
    have hsome : (absorb significand cs).2 ≠ [] := fun hnil => hleft (by rw [hnil]; rfl)
    rw [fractionPart_eq, absorb_more hsome, startsWithDigit_append hsome, if_pos hlong, hplaces,
      (Text.while_append_of_left hleft more).2, hmore hrest]
  · obtain ⟨hle, hmore⟩ := hdigits h
    refine ⟨hle.trans length_absorb, fun hrest more => ?_⟩
    have hsome := hdigits.ne_nil h hrest
    rw [fractionPart_eq, absorb_more hsome, startsWithDigit_append hsome, if_neg hlong, hplaces,
      if_neg hnone, hmore hrest]

theorem afterInteger_cons (c : Char) (cs : List Char) :
    afterInteger negative significand (c :: cs) =
      if c = '.' then fractionPart negative significand 0 cs
      else if c = 'e' ∨ c = 'E' then exponentPart negative significand 0 cs
      else .ok (numeralOf negative significand, c :: cs) := by
  split_ifs with hpoint hletter
  · rw [hpoint]
    rfl
  · rcases hletter with rfl | rfl
    · rfl
    · rfl
  · rw [not_or] at hletter
    simp [afterInteger, hpoint, hletter]

theorem stopped_afterInteger : Stopped (afterInteger negative significand)
  | [], _, _, h => (delimited_done (numeralOf negative significand)).stopped.nil (by rfl) h
  | c :: cs, n, rest, h => by
    by_cases hpoint : c = '.'
    · exact (stopped_fractionPart negative significand 0).behind
        (fun cs => by rw [afterInteger_cons, if_pos hpoint]) h
    by_cases hletter : c = 'e' ∨ c = 'E'
    · exact (stopped_exponentPart negative significand 0).behind
        (fun cs => by rw [afterInteger_cons, if_neg hpoint, if_pos hletter]) h
    exact (delimited_done (numeralOf negative significand)).stopped.whole
      (fun cs => by rw [afterInteger_cons, if_neg hpoint, if_neg hletter]) h

theorem afterLongInteger_cons (extra : Nat) (c : Char) (cs : List Char) :
    afterLongInteger negative significand extra (c :: cs) =
      if c = '.' then fractionPart negative significand extra cs
      else afterDigits negative significand extra (c :: cs) := by
  split_ifs with hpoint
  · rw [hpoint]
    rfl
  · simp [afterLongInteger, hpoint]

theorem stopped_afterLongInteger (extra : Nat) : Stopped (afterLongInteger negative significand extra)
  | [], _, _, h => (stopped_afterDigits negative significand extra).nil (by rfl) h
  | c :: cs, n, rest, h => by
    by_cases hpoint : c = '.'
    · exact (stopped_fractionPart negative significand extra).behind
        (fun cs => by rw [afterLongInteger_cons, if_pos hpoint]) h
    · exact (stopped_afterDigits negative significand extra).whole
        (fun cs => by rw [afterLongInteger_cons, if_neg hpoint]) h

theorem numeral_cons (c : Char) (cs : List Char) :
    numeral negative (c :: cs) =
      if c = '0' then
        if startsWithDigit cs then .error .invalidNumber else afterInteger negative 0 cs
      else if !isDecimal c then .error .invalidNumber
      else if startsWithDigit (absorb (digitValue c) cs).2 then
        afterLongInteger negative (absorb (digitValue c) cs).1
          ((absorb (digitValue c) cs).2.takeWhile isDecimal).length
          ((absorb (digitValue c) cs).2.dropWhile isDecimal)
      else afterInteger negative (absorb (digitValue c) cs).1 (absorb (digitValue c) cs).2 := by
  by_cases hzero : c = '0'
  · rw [if_pos hzero, hzero]
    rfl
  · rw [if_neg hzero, numeral]
    exact hzero

/-- **A number stops** in front of what is no part of it. -/
theorem stopped_numeral : Stopped (numeral negative)
  | [], _, _, h => by cases h
  | c :: cs, n, rest, h => by
    rw [numeral_cons] at h
    split_ifs at h with hzero hleading hdigit hlong
    · obtain ⟨hle, hmore⟩ := stopped_afterInteger negative 0 h
      refine ⟨Nat.le_succ_of_le hle, fun hrest more => ?_⟩
      have hcs := (stopped_afterInteger negative 0).ne_nil h hrest
      rw [List.cons_append, numeral_cons, if_pos hzero, startsWithDigit_append hcs, if_neg hleading,
        hmore hrest]
    · have hlonger := stopped_afterLongInteger negative (absorb (digitValue c) cs).1
        ((absorb (digitValue c) cs).2.takeWhile isDecimal).length
      obtain ⟨hle, hmore⟩ := hlonger h
      have hbehind := List.length_dropWhile_le isDecimal (absorb (digitValue c) cs).2
      refine ⟨Nat.le_succ_of_le ((hle.trans hbehind).trans length_absorb), fun hrest more => ?_⟩
      have hleft := hlonger.ne_nil h hrest
      have hsome : (absorb (digitValue c) cs).2 ≠ [] := fun hnil => hleft (by rw [hnil]; rfl)
      obtain ⟨htake, hdrop⟩ := Text.while_append_of_left hleft more
      rw [List.cons_append, numeral_cons, if_neg hzero, if_neg hdigit, absorb_more hsome,
        startsWithDigit_append hsome, if_pos hlong, htake, hdrop, hmore hrest]
    · have hshort := stopped_afterInteger negative (absorb (digitValue c) cs).1
      obtain ⟨hle, hmore⟩ := hshort h
      refine ⟨Nat.le_succ_of_le (hle.trans length_absorb), fun hrest more => ?_⟩
      have hsome := hshort.ne_nil h hrest
      rw [List.cons_append, numeral_cons, if_neg hzero, if_neg hdigit, absorb_more hsome,
        startsWithDigit_append hsome, if_neg hlong, hmore hrest]

end Numbers

end Shortlist.Json
