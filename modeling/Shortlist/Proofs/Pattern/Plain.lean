import Shortlist.Proofs.Pattern.Room
import Shortlist.Proofs.Pattern.Spellings

/-!
# Plain words

Most keywords are no expressions at all: none of their characters has a meaning of its own in a
pattern.  Such a plain word is valid, and it is found exactly as it is written, in any case of its
letters.  Its spellings in a text have the same case folding, so there is at most one of them in lower
case, wherever lower-casing is case folding.

The two are not the same everywhere: the long s folds to `s` and the final sigma to the other one, but
both are in lower case already.  A text that has such letters can spell a plain word in two ways.
-/

namespace Shortlist.Text

/-! ## 1. Where lower case is case folding -/

/-- The lower-case form of the character is its case folding, whatever stands around it. -/
def LowersToFold (c : Char) : Prop :=
  c ≠ 'Σ' ∧ c ≠ 'İ' ∧ shifted lowerSpans c.toNat = shifted foldSpans c.toNat

instance (c : Char) : Decidable (LowersToFold c) := inferInstanceAs (Decidable (_ ∧ _ ∧ _))

theorem LowersToFold.lowerChar_eq {c : Char} (h : LowersToFold c) (before after : List Char) :
    lowerChar before c after = [fold c] := by
  obtain ⟨hsigma, hdotted, hshifted⟩ := h
  rw [lowerChar, if_neg (by simpa using hsigma), if_neg (by simpa using hdotted), hshifted, fold]

/-- A text of such characters is folded when it is put into lower case. -/
theorem lowerAfter_eq_map_fold {cs : List Char} (h : ∀ c ∈ cs, LowersToFold c) (before : List Char) :
    lowerAfter before cs = cs.map fold := by
  induction cs generalizing before with
  | nil => rfl
  | cons c cs ih =>
    obtain ⟨hc, hcs⟩ := List.forall_mem_cons.mp h
    rw [lowerAfter, hc.lowerChar_eq, ih hcs, List.map_cons, List.singleton_append]

/-- The text is folded when it is put into lower case. -/
def LowersByFolding (text : String) : Prop := ∀ c ∈ text.toList, LowersToFold c

instance (text : String) : Decidable (LowersByFolding text) :=
  List.decidableBAll LowersToFold text.toList

/-- **ASCII texts** are folded when they are put into lower case. -/
theorem lowersByFolding_of_ascii {text : String}
    (h : text.toList.all (fun c => c.toNat < 128) = true) : LowersByFolding text := by
  have hall : ∀ n < 128, LowersToFold (Char.ofNat n) := by decide
  intro c hc
  rw [← Char.ofNat_toNat c]
  exact hall c.toNat (of_decide_eq_true (List.all_eq_true.mp h c hc))

/-- The long s is in lower case, and yet another spelling of a letter. -/
example : LowersByFolding "Designer" ∧ ¬ LowersByFolding "Deſigner" := by decide

end Shortlist.Text

namespace Shortlist.Pattern

open Text (LowersToFold LowersByFolding fold)

/-! ## 2. Reading a plain word -/

/-- The characters that have a meaning of their own in a pattern. -/
def signs : List Char := ['(', ')', '|', '?', '*', '+', '{', '[', '\\', '.', '^', '$']

/-- No character of the pattern has a meaning of its own. -/
def Plain (pattern : String) : Prop := ∀ c ∈ pattern.toList, c ∉ signs

instance (pattern : String) : Decidable (Plain pattern) :=
  List.decidableBAll (· ∉ signs) pattern.toList

section

variable [CharacterData]

/-- A character without a meaning of its own stands for itself. -/
theorem token?_of_notMem_signs {c : Char} (h : c ∉ signs) (rest : List Char) :
    token? c rest = some (.char c, rest) := by
  unfold token?
  split
  all_goals first | rfl | exact absurd h (by decide)

/-- The tokens of a plain word in front of a text are its characters. -/
theorem tokens_plain_append {cs : List Char} (h : ∀ c ∈ cs, c ∉ signs) (rest : List Char) :
    tokens (cs ++ rest) = (tokens rest).map (cs.map Token.char ++ ·) := by
  induction cs with
  | nil => simp
  | cons c cs ih =>
    obtain ⟨hc, hcs⟩ := List.forall_mem_cons.mp h
    rw [List.cons_append, tokens_cons, token?_of_notMem_signs hc, Option.bind_some]
    simp only
    rw [ih hcs, Option.map_map]
    rfl

/-- The tokens of a plain word are its characters. -/
theorem tokens_of_plain {cs : List Char} (h : ∀ c ∈ cs, c ∉ signs) :
    tokens cs = some (cs.map Token.char) := by
  have hnil : tokens [] = some [] := rfl
  simpa [hnil] using tokens_plain_append h []

end

/-- The extent of a character that stands for itself. -/
def Extent.char (c : Char) : Extent := (Re.ofSet (.letter c)).extent

/-- Characters that are read one behind the other. -/
theorem Sketch.run_chars (cs : List Char) (g : Sketch) :
    run [g] (cs.map Token.char) =
      some [⟨g.alternatives, (cs.map Extent.char).reverse ++ g.pieces⟩] := by
  induction cs generalizing g with
  | nil => rfl
  | cons c cs ih =>
    have hstep : step? [g] (Token.char c) = some [g.add (Extent.char c)] := rfl
    rw [List.map_cons, run_cons, hstep, Option.bind_some, ih]
    simp [add]

/-- Characters that are read one behind the other have no names. -/
theorem namesOf_chars (cs : List Char) : namesOf (cs.map Token.char) = [] := by
  refine List.filterMap_eq_nil_iff.mpr fun t ht => ?_
  obtain ⟨c, -, rfl⟩ := List.mem_map.mp ht
  rfl

section

variable [CharacterData]

/-- **A plain word is read as its characters**, one behind the other. -/
theorem Plain.read? {pattern : String} (h : Plain pattern) :
    ∃ n, Re.read? pattern.toList = some n ∧
      n.value.extent = Extent.chain (pattern.toList.map Extent.char) := by
  have htokens := tokens_of_plain h
  have hnames : (namesOf (pattern.toList.map Token.char)).Nodup := by
    rw [namesOf_chars]
    exact List.nodup_nil
  obtain ⟨n, hn, hextent, -⟩ := (Re.ofTokens?_iff (proper_of_tokens htokens)).2 _ hnames
    (Sketch.run_chars pattern.toList Sketch.start)
  refine ⟨n, by rw [Re.read?, htokens, Option.bind_some, hn], hextent.trans ?_⟩
  simp [Sketch.meaning, Sketch.next, Sketch.start, Extent.anyOf_singleton]

/-- A plain word is valid. -/
theorem Plain.valid {pattern : String} (h : Plain pattern) : Valid pattern := by
  obtain ⟨n, hn, -⟩ := h.read?
  exact Option.isSome_iff_exists.mpr ⟨n, hn⟩

end

/-! ## 3. Its spellings -/

/-- **A character that stands for itself** takes any one of the same folding, and no other one. -/
theorem Extent.char_eq (c : Char) : char c = one fun d => fold d == fold c :=
  Re.extent_ofSet (.letter c)

/-- A character that stands for itself takes one of the same folding. -/
theorem Extent.exists_of_char {c : Char} {s t : Spot} (h : char c s t) :
    ∃ d, fold d = fold c ∧ s.rest = d :: t.rest ∧ t.before = some d := by
  rw [char_eq] at h
  obtain ⟨d, hd, htaken⟩ := h
  exact ⟨d, eq_of_beq hd, htaken⟩

/-- Characters one behind the other take a word of the same folding. -/
theorem Extent.exists_of_chars :
    ∀ {cs : List Char} {s t : Spot}, chain (cs.map char) s t →
      ∃ word, word.map fold = cs.map fold ∧ s.rest = word ++ t.rest
  | [], s, t, h => by
    obtain rfl : s = t := h
    exact ⟨[], rfl, rfl⟩
  | c :: cs, s, t, ⟨u, hsu, hut⟩ => by
    obtain ⟨d, hd, hfirst, -⟩ := exists_of_char hsu
    obtain ⟨word, hword, hrest⟩ := exists_of_chars hut
    exact ⟨d :: word, by rw [List.map_cons, List.map_cons, hd, hword],
      by rw [hfirst, hrest, List.cons_append]⟩

/-- What matches between word boundaries matches without them. -/
theorem Extent.of_wrapped {wholeWords : Bool} {e : Extent} {s t : Spot}
    (h : wrapped wholeWords e s t) : e s t := by
  cases wholeWords with
  | false => exact h
  | true =>
    obtain ⟨s', ⟨rfl, -⟩, t', hst, t'', ⟨rfl, -⟩, rfl⟩ := h
    exact hst

variable [CharacterData]

/-- **A plain word is spelled by words of its own folding only.** -/
theorem Plain.map_fold {pattern : String} (hplain : Plain pattern) {wholeWords : Bool} {text : String}
    {word : List Char} (h : Spells pattern wholeWords text word) :
    word.map fold = pattern.toList.map fold := by
  obtain ⟨n, hn, s, -, t, hst, hrest⟩ := h
  obtain ⟨m, hm, hextent⟩ := hplain.read?
  obtain rfl := Option.some.inj (hn.symm.trans hm)
  have hchars := Extent.of_wrapped hst
  rw [hextent] at hchars
  obtain ⟨word', hfold, hrest'⟩ := Extent.exists_of_chars hchars
  rw [List.append_cancel_right (hrest.symm.trans hrest'), hfold]

/-- **A plain word has at most one spelling**, in a text where lower case is case folding. -/
theorem Plain.ncard_spellings_le {pattern : String} (hplain : Plain pattern) (wholeWords : Bool)
    {text : String} (htext : LowersByFolding text) :
    (spellings pattern wholeWords text).ncard ≤ 1 := by
  have hone : spellings pattern wholeWords text ⊆ {pattern.toList.map fold} := by
    rintro _ ⟨word, hword, rfl⟩
    have hpiece : ∀ c ∈ word, LowersToFold c := fun c hc => htext c (hword.isInfix.subset hc)
    rw [Set.mem_singleton_iff, Text.lowerChars, Text.lowerAfter_eq_map_fold hpiece]
    exact hplain.map_fold hword
  exact (Set.ncard_le_ncard hone).trans (Set.ncard_singleton _).le

/-- **Plain words are counted once**: no more than those that are found, in such a text. -/
theorem Table.distinctMatches_le_of_plain {patterns : List String} {wholeWords : Bool} {t : Table}
    (hplain : ∀ p ∈ patterns, Plain p) (hcompile : compile? patterns wholeWords = some t)
    {text : String} (htext : LowersByFolding text) :
    t.distinctMatches text ≤ (found patterns wholeWords text).ncard := by
  have hle := distinctMatches_le (fun p hp => (hplain p hp).valid) hcompile
    fun p hp => (hplain p hp).ncard_spellings_le wholeWords htext
  rwa [Nat.one_mul] at hle

end Shortlist.Pattern
