import Shortlist.Captcha
import Shortlist.Proofs.Text.Runs

/-!
# The forms in which a page holds a site key

There are two, an attribute and a rendering call.  Each is a relation between what leads to the entry of
the key, the key, and the entry; `Attribute` and `Call` list the texts that have it, without any order in
which they are looked for.

The order is `First`: the form is had at no place further to the left, and what leads to the entry could
not be longer.  For an attribute nothing is left open by then.  A call can have several entries, and the
one with the longest lead is the last of them that begins before the first closing brace.

The readers of the parts, up to the entries of an object, are shown to answer with the key of what they
look for, whatever stands behind it.
-/

namespace Shortlist.Captcha

/-! ## 1. Forms -/

/-- The two quotes. -/
def Quote (c : Char) : Prop := c = '"' ∨ c = '\''

/-- Nothing but blanks. -/
def Blank (cs : List Char) : Prop := ∀ c ∈ cs, Text.isBlank c = true

/-- A key in quotes, not necessarily of the same kind; it is not empty and has no quotes in it. -/
def Quoted (key entry : List Char) : Prop :=
  key ≠ [] ∧ (∀ c ∈ key, ¬ Quote c) ∧ ∃ q q', Quote q ∧ Quote q' ∧ entry = q :: (key ++ [q'])

/-- An entry of an object, its name maybe with a quote behind it. -/
def Entry (key entry : List Char) : Prop :=
  ∃ quote before after quoted, (quote = [] ∨ ∃ q, Quote q ∧ quote = [q]) ∧
    Blank before ∧ Blank after ∧ Quoted key quoted ∧
    entry = "sitekey".toList ++ quote ++ before ++ ':' :: (after ++ quoted)

/-- The front of a rendering call: its first argument and the brace that opens the second one. -/
def Opening (opening : List Char) : Prop :=
  ∃ first blanks, first ≠ [] ∧ ',' ∉ first ∧ Blank blanks ∧
    opening = "grecaptcha.render(".toList ++ first ++ ',' :: (blanks ++ ['{'])

/-- A form in which a text can hold a key: what leads to the entry, the key, and the entry. -/
abbrev Form := (lead key entry : List Char) → Prop

/-- An attribute that holds a key. -/
def Attribute : Form := fun lead key entry => lead = "data-sitekey=".toList ∧ Quoted key entry

/-- A rendering call with an entry for the key, which begins before the first closing brace. -/
def Call : Form := fun lead key entry =>
  ∃ opening skipped, Opening opening ∧ '}' ∉ skipped ∧ lead = opening ++ skipped ∧ Entry key entry

/-! ## 2. Places -/

/-- The text begins with the form. -/
def At (form : Form) (text lead key : List Char) : Prop :=
  ∃ entry behind, text = lead ++ entry ++ behind ∧ form lead key entry

/-- The text begins with the form, and no longer lead would do. -/
def Longest (form : Form) (text key : List Char) : Prop :=
  ∃ lead, At form text lead key ∧
    ∀ lead' key', At form text lead' key' → lead'.length ≤ lead.length

/-- Some part of the text has the form. -/
def Has (form : Form) (text : List Char) : Prop :=
  ∃ front rest lead key, text = front ++ rest ∧ At form rest lead key

/-- The key at the leftmost place that has the form. -/
def First (form : Form) (text key : List Char) : Prop :=
  ∃ front rest, text = front ++ rest ∧ Longest form rest key ∧
    ∀ front' rest' lead' key', text = front' ++ rest' → At form rest' lead' key' →
      front.length ≤ front'.length

variable {cs rest key : List Char} {c : Char}

/-! ## 3. Keys in quotes -/

theorem isQuote_iff : isQuote c = true ↔ Quote c := by
  simp only [isQuote, Bool.or_eq_true, beq_iff_eq, Quote]

theorem not_isQuote_iff : (!isQuote c) = true ↔ ¬ Quote c := by
  rw [Bool.not_eq_true', ← Bool.not_eq_true, isQuote_iff]

theorem behind?_eq_some_iff {word : String} :
    behind? word cs = some rest ↔ cs = word.toList ++ rest := by
  rw [behind?]
  constructor
  · intro h
    split at h
    · rename_i hfront
      obtain ⟨tail, rfl⟩ := List.isPrefixOf_iff_prefix.mp hfront
      rw [List.drop_left, Option.some.injEq] at h
      rw [h]
    · cases h
  · rintro rfl
    rw [if_pos (List.isPrefixOf_iff_prefix.mpr ⟨rest, rfl⟩), List.drop_left]

/-- **The reader of a quoted key.** -/
theorem quoted?_eq_some_iff :
    quoted? cs = some key ↔ ∃ entry behind, cs = entry ++ behind ∧ Quoted key entry := by
  constructor
  · intro h
    cases cs with
    | nil => cases h
    | cons q text =>
      simp only [quoted?, Bool.and_eq_true, Bool.not_eq_true', Option.ite_none_right_eq_some,
        Option.some.injEq] at h
      obtain ⟨⟨⟨hquote, hnonempty⟩, hended⟩, rfl⟩ := h
      obtain ⟨q', behind, hdrop⟩ := List.exists_cons_of_ne_nil (List.isEmpty_eq_false_iff.mp hended)
      obtain ⟨hclosing, run, hrun, rfl⟩ := Text.dropWhile_eq_cons_iff.mp hdrop
      rw [Text.takeWhile_append_cons hrun hclosing] at hnonempty ⊢
      refine ⟨q :: (run ++ [q']), behind, by simp, List.isEmpty_eq_false_iff.mp hnonempty, ?_,
        q, q', isQuote_iff.mp hquote, ?_, rfl⟩
      · exact fun c hc => not_isQuote_iff.mp (hrun c hc)
      · simpa [isQuote_iff] using hclosing
  · rintro ⟨entry, behind, rfl, hnonempty, hnone, q, q', hq, hq', rfl⟩
    have hrun : ∀ c ∈ key, (!isQuote c) = true := fun c hc => not_isQuote_iff.mpr (hnone c hc)
    have hclosing : (!isQuote q') = false := by
      simpa [isQuote_iff] using hq'
    have hdrop : (key ++ q' :: behind).dropWhile (!isQuote ·) = q' :: behind :=
      Text.dropWhile_eq_cons_iff.mpr ⟨hclosing, key, hrun, rfl⟩
    have hsplit : q :: (key ++ [q']) ++ behind = q :: (key ++ q' :: behind) := by simp
    rw [hsplit]
    simp only [quoted?, hdrop, Text.takeWhile_append_cons hrun hclosing]
    simp [isQuote_iff.mpr hq, hnonempty]

/-! ## 4. Entries -/

/-- What is left behind the quote that may stand at the front. -/
def dropQuote : List Char → List Char
  | [] => []
  | c :: rest => if isQuote c then rest else c :: rest

/-- The key behind a colon. -/
def valueKey? (cs : List Char) : Option (List Char) :=
  match cs.dropWhile Text.isBlank with
  | ':' :: rest => quoted? (rest.dropWhile Text.isBlank)
  | _ => none

theorem entryKey?_eq (cs : List Char) :
    entryKey? cs = (behind? "sitekey" cs).bind fun rest => valueKey? (dropQuote rest) := by
  rw [entryKey?]
  congr 1
  funext rest
  cases rest <;> rfl

theorem Quote.isBlank {q : Char} (h : Quote q) : Text.isBlank q = false := by
  rcases h with rfl | rfl <;> decide

/-- Blanks end at a character that is none. -/
theorem dropWhile_isBlank_iff (hc : Text.isBlank c = false) :
    cs.dropWhile Text.isBlank = c :: rest ↔ ∃ blanks, Blank blanks ∧ cs = blanks ++ c :: rest := by
  rw [Text.dropWhile_eq_cons_iff]
  exact ⟨fun h => h.2, fun h => ⟨hc, h⟩⟩

/-- A quoted key with blanks in front of it. -/
theorem quoted?_dropWhile_iff :
    quoted? (cs.dropWhile Text.isBlank) = some key ↔
      ∃ blanks quoted behind, Blank blanks ∧ Quoted key quoted ∧
        cs = blanks ++ (quoted ++ behind) := by
  rw [quoted?_eq_some_iff]
  constructor
  · rintro ⟨quoted, behind, hdrop, hquoted⟩
    refine ⟨cs.takeWhile Text.isBlank, quoted, behind, fun c hc => List.mem_takeWhile_imp hc,
      hquoted, ?_⟩
    rw [← hdrop, List.takeWhile_append_dropWhile]
  · rintro ⟨blanks, quoted, behind, hblanks, hquoted, rfl⟩
    refine ⟨quoted, behind, ?_, hquoted⟩
    obtain ⟨-, -, q, q', hq, -, rfl⟩ := hquoted
    exact (dropWhile_isBlank_iff hq.isBlank).mpr ⟨blanks, hblanks, rfl⟩

/-- The key behind a colon, with blanks on both sides of the colon. -/
theorem valueKey?_eq_some_iff :
    valueKey? cs = some key ↔ ∃ before after quoted behind,
      Blank before ∧ Blank after ∧ Quoted key quoted ∧
        cs = before ++ ':' :: (after ++ (quoted ++ behind)) := by
  have hcolon : Text.isBlank ':' = false := by decide
  constructor
  · intro h
    unfold valueKey? at h
    split at h
    · rename_i rest hdrop
      obtain ⟨before, hbefore, rfl⟩ := (dropWhile_isBlank_iff hcolon).mp hdrop
      obtain ⟨after, quoted, behind, hafter, hquoted, rfl⟩ := quoted?_dropWhile_iff.mp h
      exact ⟨before, after, quoted, behind, hbefore, hafter, hquoted, rfl⟩
    · cases h
  · rintro ⟨before, after, quoted, behind, hbefore, hafter, hquoted, hcs⟩
    rw [valueKey?, (dropWhile_isBlank_iff hcolon).mpr ⟨before, hbefore, hcs⟩]
    exact quoted?_dropWhile_iff.mpr ⟨after, quoted, behind, hafter, hquoted, rfl⟩

/-- A text that does not begin with a quote, or the quote in front of the rest. -/
theorem dropQuote_split (cs : List Char) :
    ∃ quote, (quote = [] ∨ ∃ q, Quote q ∧ quote = [q]) ∧ cs = quote ++ dropQuote cs := by
  cases cs with
  | nil => exact ⟨[], Or.inl rfl, rfl⟩
  | cons c rest =>
    rw [dropQuote]
    split
    · rename_i hquote
      exact ⟨[c], Or.inr ⟨c, isQuote_iff.mp hquote, rfl⟩, rfl⟩
    · exact ⟨[], Or.inl rfl, rfl⟩

/-- In front of a colon with blanks before it, a quote or nothing is dropped. -/
theorem dropQuote_append {quote before : List Char}
    (hquote : quote = [] ∨ ∃ q, Quote q ∧ quote = [q]) (hbefore : Blank before) (tail : List Char) :
    dropQuote (quote ++ (before ++ ':' :: tail)) = before ++ ':' :: tail := by
  rcases hquote with rfl | ⟨q, hq, rfl⟩
  · cases before with
    | nil => rfl
    | cons b before =>
      have hblank : Text.isBlank b = true := hbefore b List.mem_cons_self
      have hb : ¬ Quote b := fun hq => Bool.noConfusion (hq.isBlank.symm.trans hblank)
      rw [List.nil_append, List.cons_append, dropQuote, if_neg (mt isQuote_iff.mp hb)]
  · rw [List.singleton_append, dropQuote, if_pos (isQuote_iff.mpr hq)]

/-- **The reader of an entry.** -/
theorem entryKey?_eq_some_iff :
    entryKey? cs = some key ↔ ∃ entry behind, cs = entry ++ behind ∧ Entry key entry := by
  rw [entryKey?_eq, Option.bind_eq_some_iff]
  constructor
  · rintro ⟨rest, hname, hvalue⟩
    obtain ⟨quote, hquote, hrest⟩ := dropQuote_split rest
    obtain ⟨before, after, quoted, behind, hbefore, hafter, hquoted, hsplit⟩ :=
      valueKey?_eq_some_iff.mp hvalue
    refine ⟨_, behind, ?_, quote, before, after, quoted, hquote, hbefore, hafter, hquoted, rfl⟩
    rw [behind?_eq_some_iff.mp hname, hrest, hsplit]
    simp
  · rintro ⟨entry, behind, rfl, quote, before, after, quoted, hquote, hbefore, hafter, hquoted, rfl⟩
    refine ⟨quote ++ (before ++ ':' :: (after ++ (quoted ++ behind))),
      behind?_eq_some_iff.mpr (by simp), ?_⟩
    rw [dropQuote_append hquote hbefore, valueKey?_eq_some_iff]
    exact ⟨before, after, quoted, behind, hbefore, hafter, hquoted, rfl⟩

/-! ## 5. Objects -/

/-- Behind some characters, none of them a closing brace, the text begins with an entry. -/
def Skips (cs skipped key : List Char) : Prop :=
  ∃ rest, cs = skipped ++ rest ∧ '}' ∉ skipped ∧ entryKey? rest = some key

theorem not_skips_nil (skipped key : List Char) : ¬ Skips [] skipped key := by
  rintro ⟨rest, hsplit, -, hkey⟩
  rw [(List.append_eq_nil_iff.mp hsplit.symm).2] at hkey
  cases hkey

/-- An entry is at the front, or behind the first character. -/
theorem skips_cons_iff {skipped : List Char} :
    Skips (c :: cs) skipped key ↔ (skipped = [] ∧ entryKey? (c :: cs) = some key) ∨
      ∃ tail, skipped = c :: tail ∧ c ≠ '}' ∧ Skips cs tail key := by
  constructor
  · rintro ⟨rest, hsplit, hbrace, hkey⟩
    cases skipped with
    | nil =>
      rw [List.nil_append] at hsplit
      exact Or.inl ⟨rfl, hsplit ▸ hkey⟩
    | cons d tail =>
      obtain ⟨rfl, rfl⟩ := List.cons.inj hsplit
      rw [List.mem_cons, not_or] at hbrace
      exact Or.inr ⟨tail, rfl, Ne.symm hbrace.1, rest, rfl, hbrace.2, hkey⟩
  · rintro (⟨rfl, hkey⟩ | ⟨tail, rfl, hc, rest, rfl, hbrace, hkey⟩)
    · exact ⟨c :: cs, rfl, List.not_mem_nil, hkey⟩
    · refine ⟨rest, rfl, ?_, hkey⟩
      rw [List.mem_cons, not_or]
      exact ⟨Ne.symm hc, hbrace⟩

/-- The place of an entry determines its key. -/
theorem Skips.unique {skipped skipped' key' : List Char} (h : Skips cs skipped key)
    (h' : Skips cs skipped' key') (hlength : skipped.length = skipped'.length) : key = key' := by
  obtain ⟨rest, rfl, -, hkey⟩ := h
  obtain ⟨rest', hsplit, -, hkey'⟩ := h'
  obtain ⟨-, rfl⟩ := List.append_inj hsplit hlength
  exact Option.some.inj (hkey.symm.trans hkey')

theorem lastEntryKey?_cons (c : Char) (rest : List Char) :
    lastEntryKey? (c :: rest) =
      if c = '}' then none else (lastEntryKey? rest).or (entryKey? (c :: rest)) := by
  rw [lastEntryKey?]
  simp only [beq_iff_eq]
  cases lastEntryKey? rest <;> rfl

/-- No entry begins with a closing brace. -/
theorem entryKey?_brace (rest : List Char) : entryKey? ('}' :: rest) = none := rfl

/-- No entry is overlooked. -/
theorem not_skips_of_lastEntryKey? :
    ∀ {cs : List Char}, lastEntryKey? cs = none → ∀ skipped key, ¬ Skips cs skipped key
  | [], _, skipped, key => not_skips_nil skipped key
  | c :: cs, h, skipped, key => by
    rw [lastEntryKey?_cons] at h
    rw [skips_cons_iff]
    rintro (⟨-, hkey⟩ | ⟨tail, -, hc, hskips⟩)
    · split at h
      · rename_i hbrace
        rw [hbrace, entryKey?_brace] at hkey
        cases hkey
      · rw [(Option.or_eq_none_iff.mp h).2] at hkey
        cases hkey
    · rw [if_neg hc] at h
      exact not_skips_of_lastEntryKey? (Option.or_eq_none_iff.mp h).1 tail key hskips

/-- **The reader of the entries of an object** answers with the last of them. -/
theorem exists_skips_of_lastEntryKey? :
    ∀ {cs key : List Char}, lastEntryKey? cs = some key →
      ∃ skipped, Skips cs skipped key ∧
        ∀ skipped' key', Skips cs skipped' key' → skipped'.length ≤ skipped.length
  | [], key, h => by cases h
  | c :: cs, key, h => by
    rw [lastEntryKey?_cons] at h
    split at h
    · cases h
    · rename_i hc
      rcases hrest : lastEntryKey? cs with - | last
      · -- only the entry at the front is left
        rw [hrest, Option.none_or] at h
        refine ⟨[], skips_cons_iff.mpr (Or.inl ⟨rfl, h⟩), ?_⟩
        intro skipped' key' hskips
        rcases skips_cons_iff.mp hskips with ⟨rfl, -⟩ | ⟨tail, -, -, htail⟩
        · exact Nat.le_refl _
        · exact absurd htail (not_skips_of_lastEntryKey? hrest tail key')
      · rw [hrest, Option.some_or, Option.some.injEq] at h
        subst h
        obtain ⟨skipped, hskips, hlast⟩ := exists_skips_of_lastEntryKey? hrest
        refine ⟨c :: skipped, skips_cons_iff.mpr (Or.inr ⟨skipped, rfl, hc, hskips⟩), ?_⟩
        intro skipped' key' hskips'
        rcases skips_cons_iff.mp hskips' with ⟨rfl, -⟩ | ⟨tail, rfl, -, htail⟩
        · exact Nat.zero_le _
        · exact Nat.succ_le_succ (hlast tail key' htail)

end Shortlist.Captcha
