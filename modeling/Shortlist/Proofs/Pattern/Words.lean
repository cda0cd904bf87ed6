import Shortlist.Proofs.Pattern.Plain

/-!
# Where words are found

When does one pattern match wherever another one does?  Three answers are given, for patterns that are
next to plain words.

A plain word that may stand inside of words is found in every longer text, as it looks at nothing around
it.  A whole word does: a longer text can turn the boundary behind it into the middle of a word.  But if
a plain word has a boundary inside, such as one in front of a blank, then its front up to there is found
as a whole word wherever all of it is (`Plain.finds_front`).  And a word of which one character may be
left out is found where the word is, with that character or without it.

The boundary in the middle has to be there in all spellings of the two characters around it, and so has
to be looked for in their orbits.
-/

namespace Shortlist.Pattern

open Relation (Comp)
open Text (isWord orbit fold mem_orbit)

variable {pattern text : String} {wholeWords : Bool}

section

variable [CharacterData]

/-- **A plain word is found** where its characters stand one behind the other. -/
theorem Plain.finds_iff (h : Plain pattern) :
    Finds pattern wholeWords text ↔
      ((Extent.chain (pattern.toList.map Extent.char)).wrapped wholeWords).Occurs text := by
  obtain ⟨n, hn, hextent⟩ := h.read?
  constructor
  · rintro ⟨m, hm, hoccurs⟩
    obtain rfl := Option.some.inj (hn.symm.trans hm)
    rwa [← hextent]
  · exact fun hoccurs => ⟨n, hn, by rwa [hextent]⟩

/-! ## 1. Longer texts -/

/-- The spot of a text, in the text that goes on with more characters. -/
def Spot.append (s : Spot) (more : List Char) : Spot := ⟨s.before, s.rest ++ more⟩

omit [CharacterData] in
theorem append_mem_spots {s : Spot} (more : List Char) :
    ∀ {cs : List Char} {before : Option Char}, s ∈ spots before cs →
      s.append more ∈ spots before (cs ++ more)
  | [], before, hs => by
    rw [List.mem_singleton.mp hs]
    exact mem_spots_self before more
  | c :: cs, before, hs => by
    rcases List.mem_cons.mp hs with rfl | hs
    · exact List.mem_cons_self
    · exact List.mem_cons_of_mem _ (append_mem_spots more hs)

omit [CharacterData] in
/-- Characters match whatever stands behind them. -/
theorem Extent.chars_append (more : List Char) :
    ∀ {cs : List Char} {s t : Spot}, chain (cs.map char) s t →
      chain (cs.map char) (s.append more) (t.append more)
  | [], _, _, h => congrArg (Spot.append · more) h
  | c :: cs, s, t, ⟨u, hsu, hut⟩ => by
    rw [char_eq] at hsu
    obtain ⟨d, hd, hrest, hbefore⟩ := hsu
    refine ⟨u.append more, ?_, chars_append more hut⟩
    rw [char_eq]
    exact ⟨d, hd, by rw [Spot.append, hrest]; rfl, hbefore⟩

/-- **A plain word is found in every longer text**, if it may stand inside of words. -/
theorem Plain.finds_append (h : Plain pattern) (hfinds : Finds pattern false text) (more : String) :
    Finds pattern false (text ++ more) := by
  obtain ⟨s, hs, t, hst⟩ := h.finds_iff.mp hfinds
  refine h.finds_iff.mpr ⟨s.append more.toList, ?_, t.append more.toList, Extent.chars_append _ hst⟩
  rw [String.toList_append]
  exact append_mem_spots _ hs

/-! ## 2. The front of a word -/

/-- Between the two characters there is a word boundary, in all of their spellings. -/
def Divides (c d : Char) : Prop := ∀ x ∈ orbit c, ∀ y ∈ orbit d, isWord x ≠ isWord y

instance (c d : Char) : Decidable (Divides c d) :=
  decidable_of_iff ((orbit c).all fun x => (orbit d).all fun y => isWord x != isWord y)
    (by simp [Divides])

/-- **The front of a plain word is found as a whole word** wherever the whole is, if there is a word
boundary behind the front. -/
theorem Plain.finds_front {front behind : String} {c d : Char} (hplain : Plain (front ++ behind))
    (hlast : front.toList.getLast? = some c) (hnext : behind.toList.head? = some d)
    (hdivides : Divides c d) (h : Finds (front ++ behind) true text) : Finds front true text := by
  have hfront : Plain front := fun x hx =>
    hplain x (by rw [String.toList_append]; exact List.mem_append_left _ hx)
  obtain ⟨s, hs, t, s', hstart, t', hwhole, -⟩ := hplain.finds_iff.mp h
  rw [String.toList_append, List.map_append, Extent.chain_append] at hwhole
  obtain ⟨u, hsu, hut⟩ := hwhole
  -- the spot between the two parts stands behind a spelling of `c` and in front of one of `d`
  obtain ⟨x, hx, hbefore⟩ : ∃ x, fold x = fold c ∧ u.before = some x := by
    obtain ⟨cs, hcs⟩ := List.getLast?_eq_some_iff.mp hlast
    rw [hcs, List.map_append, Extent.chain_append, List.map_singleton, Extent.chain_singleton] at hsu
    obtain ⟨v, -, hvu⟩ := hsu
    obtain ⟨x, hx, -, hbefore⟩ := Extent.exists_of_char hvu
    exact ⟨x, hx, hbefore⟩
  obtain ⟨y, hy, hrest⟩ : ∃ y, fold y = fold d ∧ u.rest.head? = some y := by
    obtain ⟨ds, hds⟩ := List.head?_eq_some_iff.mp hnext
    rw [hds] at hut
    obtain ⟨v, huv, -⟩ := hut
    obtain ⟨y, hy, hrest, -⟩ := Extent.exists_of_char huv
    exact ⟨y, hy, by rw [hrest]; rfl⟩
  have hboundary : Extent.wordBoundary u u := by
    have hne : isWord x ≠ isWord y := hdivides x (mem_orbit hx) y (mem_orbit hy)
    refine ⟨rfl, ?_⟩
    rw [Assertion.holds, Spot.place, hbefore, hrest]
    exact bne_iff_ne.mpr hne
  exact hfront.finds_iff.mpr ⟨s, hs, u, s', hstart, u, hsu, u, hboundary, rfl⟩

/-! ## 3. A character that may be left out -/

omit [CharacterData] in
/-- What may be left out is there or not. -/
theorem Extent.repeated_optional (e : Extent) : repeated 0 (some 1) e = anyOf [Eq, e] := by
  rw [repeated_zero_succ, repeated_self, rounds, Relation.comp_eq, anyOf_cons, anyOf_singleton]

omit [CharacterData] in
/-- A piece that may be left out of a chain. -/
theorem Extent.chain_optional (front behind : List Extent) (e : Extent) :
    chain (front ++ repeated 0 (some 1) e :: behind) =
      anyOf [chain (front ++ behind), chain (front ++ e :: behind)] := by
  rw [repeated_optional]
  funext s t
  simp only [chain_append, chain_cons, anyOf, Comp, List.mem_cons, List.not_mem_nil, or_false,
    exists_eq_or_imp, exists_eq_left, eq_iff_iff]
  constructor
  · rintro ⟨u, hsu, v, rfl | huv, hvt⟩
    · exact Or.inl ⟨u, hsu, hvt⟩
    · exact Or.inr ⟨u, hsu, v, huv, hvt⟩
  · rintro (⟨u, hsu, hut⟩ | ⟨u, hsu, v, huv, hvt⟩)
    · exact ⟨u, hsu, u, Or.inl rfl, hut⟩
    · exact ⟨u, hsu, v, Or.inr huv, hvt⟩

/-- The tokens of a plain word with a character that may be left out. -/
theorem tokens_optional {front behind : List Char} {c : Char} (hfront : ∀ d ∈ front, d ∉ signs)
    (hc : c ∉ signs) (hbehind : ∀ d ∈ behind, d ∉ signs) :
    tokens (front ++ c :: '?' :: behind) =
      some (front.map Token.char ++ .char c :: .repetition 0 (some 1) true :: behind.map Token.char) := by
  have hmark : token? '?' behind = some (.repetition 0 (some 1) true, behind) := by
    cases behind with
    | nil => rfl
    | cons d behind =>
      have hgreedy : repetition 0 (some 1) (d :: behind) = (.repetition 0 (some 1) true, d :: behind) := by
        unfold repetition
        split
        · rename_i heq
          cases heq
          exact absurd (by decide) (hbehind '?' List.mem_cons_self)
        · rfl
      exact congrArg some hgreedy
  rw [tokens_plain_append hfront, tokens_cons, token?_of_notMem_signs hc, Option.bind_some]
  simp only
  rw [tokens_cons, hmark, Option.bind_some]
  simp only
  rw [tokens_of_plain hbehind]
  rfl

/-- **A plain word of which one character may be left out** is found where the word is, with that
character or without it. -/
theorem finds_optional_iff {front behind : List Char} {c : Char} {short long : String}
    (hpattern : pattern.toList = front ++ c :: '?' :: behind) (hshort : short.toList = front ++ behind)
    (hlong : long.toList = front ++ c :: behind) (hplain : Plain long) :
    Finds pattern wholeWords text ↔ Finds short wholeWords text ∨ Finds long wholeWords text := by
  have hsigns : ∀ d ∈ front ++ c :: behind, d ∉ signs := hlong ▸ hplain
  obtain ⟨hfront, hrest⟩ := List.forall_mem_append.mp hsigns
  obtain ⟨hc, hbehind⟩ := List.forall_mem_cons.mp hrest
  have hshortPlain : Plain short := by
    rw [Plain, hshort]
    exact List.forall_mem_append.mpr ⟨hfront, hbehind⟩
  -- the pattern is read as a chain with a piece that may be left out
  have htokens := tokens_optional hfront hc hbehind
  have hrun : Sketch.run [Sketch.start]
      (front.map Token.char ++ .char c :: .repetition 0 (some 1) true :: behind.map Token.char) =
        some [⟨[], (behind.map Extent.char).reverse ++
          Extent.repeated 0 (some 1) (Extent.char c) :: (front.map Extent.char).reverse⟩] := by
    rw [Sketch.run_append, Sketch.run_chars, Option.bind_some]
    simp only [Sketch.start, List.append_nil]
    exact Sketch.run_chars behind _
  have hnames : namesOf (front.map Token.char ++ .char c :: .repetition 0 (some 1) true ::
      behind.map Token.char) = [] := by
    rw [namesOf_append, namesOf_cons, namesOf_cons, namesOf_chars, namesOf_chars]
    rfl
  obtain ⟨n, hn, hextent, -⟩ :=
    (Re.ofTokens?_iff (proper_of_tokens htokens)).2 _ (hnames ▸ List.nodup_nil) hrun
  have hread : Re.read? pattern.toList = some n := by
    rw [hpattern, Re.read?, htokens, Option.bind_some, hn]
  have hmeaning : n.value.extent = Extent.anyOf
      [Extent.chain (short.toList.map Extent.char), Extent.chain (long.toList.map Extent.char)] := by
    rw [hextent, hshort, hlong, List.map_append, List.map_append, List.map_cons,
      ← Extent.chain_optional]
    simp [Sketch.meaning, Sketch.next, Extent.anyOf_singleton]
  rw [hshortPlain.finds_iff, hplain.finds_iff, Finds]
  simp only [hread, Option.some.injEq, exists_eq_left', hmeaning, Extent.occurs_wrapped_anyOf,
    List.mem_cons, List.not_mem_nil, or_false, exists_eq_or_imp, exists_eq_left]

/-! ## 4. Running a pattern by itself -/

/-- What the table of a single pattern is read as, whatever its size; letters are not looked up. -/
def readAlone? (pattern : String) (wholeWords : Bool) : Option (Nested Re) :=
  let mark := if wholeWords then ['\\', 'b'] else []
  let cs := mark ++ ['(', '?', ':'] ++ pattern.toList ++ [')'] ++ mark
  (quickTokens cs.length cs).bind Re.ofTokens?

theorem readAlone?_eq (pattern : String) (wholeWords : Bool) :
    readAlone? pattern wholeWords = Re.read? (Table.sourceText [pattern] wholeWords).toList := by
  rw [Table.toList_sourceText, List.map_singleton, List.intercalate_singleton, readAlone?,
    quickTokens_eq]
  rfl

/-- Whether the pattern, compiled by itself, matches somewhere in the text. -/
def matchesAlone (pattern : String) (wholeWords : Bool) (text : String) : Bool :=
  (readAlone? pattern wholeWords).any fun n => n.value.program.foundIn none text.toList

/-- **A valid pattern is found** where it matches by itself. -/
theorem Valid.finds_iff (h : Valid pattern) :
    Finds pattern wholeWords text ↔ matchesAlone pattern wholeWords text = true := by
  obtain ⟨n, hn⟩ := Option.isSome_iff_exists.mp h
  have hreads : List.Forall₂ (fun cs n => Re.read? cs = some n) ([pattern].map String.toList) [n] :=
    .cons hn .nil
  have hnames : ([pattern].flatMap groupNames).Nodup := by
    rw [List.flatMap_singleton]
    exact h.nodup_groupNames
  obtain ⟨m, hm, hproper, hextent⟩ :=
    read?_sourceText hreads hnames (List.cons_ne_nil _ _) wholeWords
  have hmatch : m.value.program.foundIn none text.toList = true ↔ m.value.extent.Occurs text :=
    Table.isMatch_program hproper text
  rw [matchesAlone, readAlone?_eq, hm, Option.any_some, hmatch, hextent, Extent.occurs_wrapped_anyOf]
  simp [Finds, hn, extents]

/-- Only what is valid is found. -/
theorem Finds.valid (h : Finds pattern wholeWords text) : Valid pattern := by
  obtain ⟨n, hn, -⟩ := h
  exact Option.isSome_iff_exists.mpr ⟨n, hn⟩

instance (pattern : String) (wholeWords : Bool) (text : String) :
    Decidable (Finds pattern wholeWords text) :=
  decidable_of_iff (matchesAlone pattern wholeWords text = true ∧ Valid pattern)
    ⟨fun ⟨hmatches, hvalid⟩ => hvalid.finds_iff.mpr hmatches,
      fun hfinds => ⟨hfinds.valid.finds_iff.mp hfinds, hfinds.valid⟩⟩

/-- The pattern is valid and matches nowhere in the text. -/
def Misses (pattern : String) (wholeWords : Bool) (text : String) : Prop :=
  Valid pattern ∧ ¬ Finds pattern wholeWords text

instance (pattern : String) (wholeWords : Bool) (text : String) :
    Decidable (Misses pattern wholeWords text) :=
  decidable_of_iff
    (((quickTokens pattern.toList.length pattern.toList).bind Re.ofTokens?).isSome = true ∧
      ¬ Finds pattern wholeWords text)
    (by rw [quickTokens_eq, Misses, Valid, Re.read?, tokens])

/-- **A table matches nothing in a text** that all of its patterns miss. -/
theorem Table.isMatch_eq_false {patterns : List String} {t : Table}
    (hcompile : compile? patterns wholeWords = some t)
    (h : ∀ q ∈ patterns, Misses q wholeWords text) : t.isMatch text = false := by
  rw [Bool.eq_false_iff, ne_eq, isMatch_iff (fun q hq => (h q hq).1) hcompile]
  rintro ⟨q, hq, hfinds⟩
  exact (h q hq).2 hfinds

end

/-- A word is found in front of a slash, and not in front of a letter; with a slash that may be left out
it is found in both. -/
example : Finds "UI" true "a ui/ux lead" ∧ Misses "UI" true "a uiux lead" ∧
    Finds "UI/?UX" true "a ui/ux lead" ∧ Finds "UI/?UX" true "a uiux lead" := by decide

end Shortlist.Pattern
