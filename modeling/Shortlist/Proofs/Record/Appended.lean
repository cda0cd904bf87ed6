import Shortlist.Proofs.Json.Enclosed
import Shortlist.Record.Stream

/-!
# Appended files

Text that is appended to a record file is read as if it stood alone.  The reader goes on behind an
array wherever the array ends, and nothing it has read so far changes how it goes on; so the records of
the appended text come behind those of the file, and its first fault is the fault of the whole, with
none of the records read before.  Both texts are arbitrary: what is used of the first one is only that
it can be read.

`parse` counts its steps by the length of the text.  That they suffice is shown first, and from there
on a text is read by its arrays (`parseChars_array`) and not by its steps.
-/

namespace Shortlist.Record

open Json (Value)

/-! ## 1. The next array -/

/-- The next array of a sequence takes at least its brackets, and is the same with more text behind. -/
theorem nextValue_append {cs behind rest : List Char} {c : Char} {items : List Value}
    (hskip : Json.skipSpace cs = c :: behind)
    (h : nextValue (c :: behind) = .ok (.array items, rest)) :
    rest.length < cs.length ∧
      ∀ more, nextValue (c :: (behind ++ more)) = .ok (.array items, rest ++ more) := by
  obtain ⟨v, left, hvalue, hends⟩ := Json.Reading.of_andThen h
  split_ifs at hends with hdelimits
  cases hends
  obtain ⟨inside, hbracket, hlength, hmore⟩ := Json.array_append hvalue
  rw [Json.skipSpace_front hskip] at hbracket
  cases hbracket
  refine ⟨Nat.lt_of_le_of_lt hlength (Json.length_of_found hskip), fun more => ?_⟩
  rw [nextValue, Json.value, ← List.cons_append, hmore]
  rfl

/-! ## 2. Steps -/

/-- Every array takes a character, so a text needs no more steps than it has characters. -/
theorem parseWithin_enough : ∀ {steps further : Nat} {cs : List Char}, cs.length ≤ steps →
    cs.length ≤ further → parseWithin steps cs = parseWithin further cs
  | 0, 0, cs, _, _ => rfl
  | 0, further + 1, cs, h, _ => by
    rw [List.length_eq_zero_iff.mp (Nat.le_zero.mp h)]
    rfl
  | steps + 1, 0, cs, _, h => by
    rw [List.length_eq_zero_iff.mp (Nat.le_zero.mp h)]
    rfl
  | steps + 1, further + 1, cs, hsteps, hfurther => by
    rw [parseWithin, parseWithin]
    cases hskip : Json.skipSpace cs with
    | nil => rfl
    | cons c behind =>
      dsimp only
      split
      · rfl
      · rename_i items rest hnext
        obtain ⟨hlength, -⟩ := nextValue_append hskip hnext
        have hmore : parseWithin steps rest = parseWithin further rest :=
          parseWithin_enough (by omega) (by omega)
        rw [hmore]
      · rfl

/-- The records that characters describe. -/
def parseChars (cs : List Char) : Except LoadError (List Record) := parseWithin cs.length cs

theorem parseWithin_eq_parseChars {steps : Nat} {cs : List Char} (h : cs.length ≤ steps) :
    parseWithin steps cs = parseChars cs :=
  parseWithin_enough h (Nat.le_refl _)

/-- Nothing but blanks describes no records. -/
theorem parseChars_blank {cs : List Char} (h : Json.skipSpace cs = []) : parseChars cs = .ok [] := by
  rw [← parseWithin_eq_parseChars (Nat.le_succ _), parseWithin, h]

/-- **An array and what is behind it** describe the records of its items and those behind it. -/
theorem parseChars_array {cs behind rest : List Char} {c : Char} {items : List Value}
    (hskip : Json.skipSpace cs = c :: behind)
    (hnext : nextValue (c :: behind) = .ok (.array items, rest)) :
    parseChars cs = (parseChars rest).map fun records => items.filterMap ofJson? ++ records := by
  obtain ⟨hlength, -⟩ := nextValue_append hskip hnext
  rw [← parseWithin_eq_parseChars (Nat.le_succ _), parseWithin, hskip]
  simp only [hnext]
  rw [parseWithin_eq_parseChars (Nat.le_of_lt hlength)]

/-- **A text that can be read** is blank, or begins with an array, behind which it can be read. -/
theorem of_parseChars {cs : List Char} {records : List Record} (h : parseChars cs = .ok records) :
    (Json.skipSpace cs = [] ∧ records = []) ∨
      ∃ c behind items rest more, Json.skipSpace cs = c :: behind ∧
        nextValue (c :: behind) = .ok (.array items, rest) ∧ parseChars rest = .ok more ∧
        records = items.filterMap ofJson? ++ more := by
  cases hskip : Json.skipSpace cs with
  | nil =>
    rw [parseChars_blank hskip] at h
    cases h
    exact Or.inl ⟨rfl, rfl⟩
  | cons c behind =>
    have hread := h
    rw [← parseWithin_eq_parseChars (Nat.le_succ _), parseWithin, hskip] at hread
    dsimp only at hread
    split at hread
    · cases hread
    · rename_i items rest hnext
      rw [parseChars_array hskip hnext] at h
      cases hrest : parseChars rest with
      | error e =>
        rw [hrest] at h
        cases h
      | ok more =>
        rw [hrest] at h
        cases h
        exact Or.inr ⟨c, behind, items, rest, more, rfl, hnext, hrest, rfl⟩
    · cases hread

/-- Blanks in front of a text make no difference. -/
theorem parseChars_skipSpace (cs : List Char) : parseChars (Json.skipSpace cs) = parseChars cs := by
  have hle : (Json.skipSpace cs).length ≤ cs.length := List.length_dropWhile_le _ _
  have hagain : Json.skipSpace (Json.skipSpace cs) = Json.skipSpace cs :=
    List.dropWhile_idempotent _ _
  rw [← parseWithin_eq_parseChars (Nat.le_succ_of_le hle), ← parseWithin_eq_parseChars (Nat.le_succ _),
    parseWithin, parseWithin, hagain]

/-! ## 3. Appended text -/

/-- **Behind a text that can be read, another one is read as if it stood alone.**  The induction is on
the length of the first text, one array after another. -/
theorem parseChars_append (b : List Char) (n : Nat) : ∀ {a : List Char} {first : List Record},
    a.length = n → parseChars a = .ok first →
      parseChars (a ++ b) = (parseChars b).map fun records => first ++ records := by
  induction n using Nat.strongRecOn with
  | ind n ih =>
    intro a first hn ha
    rcases of_parseChars ha with ⟨hblank, rfl⟩ | ⟨c, behind, items, rest, more, hskip, hnext, hrest, rfl⟩
    · have hskip : Json.skipSpace (a ++ b) = Json.skipSpace b := by
        rw [Json.skipSpace, List.dropWhile_append, ← Json.skipSpace, hblank]
        rfl
      rw [← parseChars_skipSpace (a ++ b), hskip, parseChars_skipSpace]
      cases parseChars b with
      | ok second => rfl
      | error e => rfl
    · obtain ⟨hlength, happend⟩ := nextValue_append hskip hnext
      have hmore := ih rest.length (hn ▸ hlength) rfl hrest
      rw [parseChars_array (Json.skipSpace_of_found hskip b) (happend b), hmore]
      cases parseChars b with
      | ok second => simp only [Except.map, List.append_assoc]
      | error e => rfl

/-- **Appended files read on.**  If a text can be read, then with another one appended to it the whole
can be read exactly if the other one can, and describes the records of both, one behind the other;
otherwise it fails with the error of the other one.  How many items of either text describe no record
makes no difference. -/
theorem appended_files_read_on (a b : String) {first : List Record} (h : parse a = .ok first) :
    (∀ records, parse (a ++ b) = .ok records ↔
      ∃ second, parse b = .ok second ∧ records = first ++ second) ∧
    ∀ e, parse (a ++ b) = .error e ↔ parse b = .error e := by
  have happend : parse (a ++ b) = (parse b).map fun records => first ++ records := by
    have hchars := parseChars_append b.toList a.toList.length rfl h
    rw [← String.toList_append] at hchars
    exact hchars
  rw [happend]
  constructor
  · intro records
    cases parse b with
    | ok second => simp [Except.map, eq_comm]
    | error e => simp [Except.map]
  · intro e
    cases parse b with
    | ok second => simp [Except.map]
    | error e' => simp [Except.map]

/-- A number and a word among the items, and behind them an array with a record, or one that breaks
off. -/
theorem appended_files_read_on_malformed :
    let a := String.ofList
      ['[', '3', ',', '{', '"', 't', 'i', 't', 'l', 'e', '"', ':', '"', 'a', '"', '}', ']', ' ']
    let b := String.ofList
      ['[', '{', '"', 't', 'i', 't', 'l', 'e', '"', ':', '"', 'b', '"', '}', ',', 'n', 'u', 'l', 'l', ']']
    let broken := String.ofList ['[', '1', ']', '[', '2']
    parse a = .ok [{ title := "a" }] ∧
      parse (a ++ b) = .ok [{ title := "a" }, { title := "b" }] ∧
      parse (a ++ broken) = .error (.invalidJson .endInList) := by
  intro a b broken
  have ha : parse a = .ok [{ title := "a" }] := by
    rw [parse, String.toList_ofList]
    rfl
  have hb : parse b = .ok [{ title := "b" }] := by
    rw [parse, String.toList_ofList]
    rfl
  have hbroken : parse broken = .error (.invalidJson .endInList) := by
    rw [parse, String.toList_ofList]
    rfl
  obtain ⟨hread, -⟩ := appended_files_read_on a b ha
  obtain ⟨-, hfail⟩ := appended_files_read_on a broken ha
  exact ⟨ha, (hread _).mpr ⟨_, hb, rfl⟩, (hfail _).mpr hbroken⟩

end Shortlist.Record
