import Mathlib.Data.List.Forall2
import Shortlist.Proofs.Pattern.Search
import Shortlist.Proofs.Pattern.Sketch

/-!
# One table and its patterns one by one

A table joins its patterns as text, wraps the text and parses it once.  The main result says that
nothing is lost or gained by that: a table of valid patterns compiles, and it matches a text exactly
when the table of one of its patterns does.  So neither the order of the patterns nor repetitions
among them make a difference.

Validity and size are kept apart.  A pattern is `Valid` when it is read as an expression at all; that
the expression is not nested too deeply and not too large is a condition on the whole text of a table
(`WithinLimits`), and no property of the single patterns decides it.  One thing more can go wrong when
valid patterns are joined: two of them may have groups of the same name.
-/

namespace Shortlist.Pattern

/-! ## 1. Valid patterns -/

section

variable [CharacterData]

/-- The expression that a pattern is read as, whatever its size. -/
def Re.read? (cs : List Char) : Option (Nested Re) := (tokens cs).bind Re.ofTokens?

/-- The pattern is a regular expression by itself, limits of size aside. -/
def Valid (pattern : String) : Prop := (Re.read? pattern.toList).isSome = true

/-- What the text is read as is neither nested too deeply nor too large. -/
def WithinLimits (text : String) : Prop :=
  ∀ n ∈ Re.read? text.toList, n.levels ≤ maxLevels ∧ n.value.fits = true

instance (pattern : String) : Decidable (Valid pattern) :=
  inferInstanceAs (Decidable (_ = true))

instance (text : String) : Decidable (WithinLimits text) :=
  decidable_of_iff
    ((Re.read? text.toList).all (fun n => decide (n.levels ≤ maxLevels) && n.value.fits) = true)
    (by simp [WithinLimits, Option.all_eq_true])

/-- An expression that is read within the limits is the one that is parsed. -/
theorem Re.parse?_filter_fits {cs : List Char} {r : Re} :
    (Re.parse? cs).filter Re.fits = some r ↔
      ∃ n, Re.read? cs = some n ∧ n.levels ≤ maxLevels ∧ n.value.fits = true ∧ n.value = r := by
  rw [Option.filter_eq_some_iff, Re.parse?, ← Re.read?, Option.map_eq_some_iff]
  constructor
  · rintro ⟨⟨n, hn, rfl⟩, hfits⟩
    obtain ⟨hread, hlevels⟩ := Option.filter_eq_some_iff.mp hn
    exact ⟨n, hread, of_decide_eq_true hlevels, hfits, rfl⟩
  · rintro ⟨n, hread, hlevels, hfits, rfl⟩
    exact ⟨⟨n, Option.filter_eq_some_iff.mpr ⟨hread, decide_eq_true hlevels⟩, rfl⟩, hfits⟩

/-- **What a pattern is read as** is proper and means what its sketch means, and no two of its groups
have the same name. -/
theorem Re.read?_iff {cs : List Char} {n : Nested Re} (h : Re.read? cs = some n) :
    ∃ ts g, tokens cs = some ts ∧ (namesOf ts).Nodup ∧ Sketch.run [Sketch.start] ts = some [g] ∧
      n.value.extent = g.meaning ∧ n.value.Proper := by
  obtain ⟨ts, hts, hn⟩ := Option.bind_eq_some_iff.mp h
  obtain ⟨hnodup, g, hrun, hextent, hproper⟩ := (Re.ofTokens?_iff (proper_of_tokens hts)).1 n hn
  exact ⟨ts, g, hts, hnodup, hrun, hextent, hproper⟩

theorem Valid.nodup_groupNames {pattern : String} (h : Valid pattern) : (groupNames pattern).Nodup := by
  obtain ⟨n, hn⟩ := Option.isSome_iff_exists.mp h
  obtain ⟨ts, -, hts, hnodup, -⟩ := Re.read?_iff hn
  rwa [groupNames, namesIn_eq hts]

end

/-! ## 2. Joined patterns -/

/-- The extent of a word boundary. -/
def Extent.wordBoundary : Extent := (Re.assertion .wordBoundary).extent

/-- An extent between two word boundaries, if it is for whole words. -/
def Extent.wrapped (wholeWords : Bool) (e : Extent) : Extent :=
  if wholeWords then Extent.chain [wordBoundary, e, wordBoundary] else e

/-- A group with the alternatives of several ones means any of them. -/
theorem Sketch.meaning_of_mem {g : Sketch} {gs : List Sketch}
    (h : ∀ e, e ∈ g.next.alternatives ↔ ∃ g' ∈ gs, e ∈ g'.next.alternatives) :
    g.meaning = Extent.anyOf (gs.map Sketch.meaning) := by
  funext s t
  simp only [meaning, Extent.anyOf, List.mem_reverse, h, List.mem_map, eq_iff_iff]
  constructor
  · rintro ⟨e, ⟨g', hg', he⟩, hst⟩
    exact ⟨_, ⟨g', hg', rfl⟩, e, List.mem_reverse.mpr he, hst⟩
  · rintro ⟨_, ⟨g', hg', rfl⟩, e, he, hst⟩
    exact ⟨e, ⟨g', hg', List.mem_reverse.mp he⟩, hst⟩

/-- The tokens of a table's text, given those of the joined patterns: they stand in a group, and for whole
words there is a word boundary on either side of it. -/
def wrappedTokens (wholeWords : Bool) (ts : List Token) : List Token :=
  if wholeWords then
    [.flatAtom (.assertion .wordBoundary), .opening .plain] ++ ts ++
      [.closing, .flatAtom (.assertion .wordBoundary)]
  else [.opening .plain] ++ ts ++ [.closing]

/-- The group around the joined patterns has no name. -/
theorem namesOf_wrappedTokens (wholeWords : Bool) (ts : List Token) :
    namesOf (wrappedTokens wholeWords ts) = namesOf ts := by
  cases wholeWords with
  | true =>
    rw [wrappedTokens, if_pos rfl, namesOf_append, namesOf_append]
    exact List.append_nil _
  | false =>
    rw [wrappedTokens, if_neg Bool.false_ne_true, namesOf_append, namesOf_append]
    exact List.append_nil _

/-- **Wrapped tokens** are read as what they wrap, wrapped. -/
theorem Sketch.run_wrappedTokens {tss : List (List Token)} {gs : List Sketch}
    (h : List.Forall₂ (fun ts g => Sketch.run [Sketch.start] ts = some [g]) tss gs) (hne : tss ≠ [])
    (wholeWords : Bool) :
    ∃ g, Sketch.run [Sketch.start] (wrappedTokens wholeWords ([Token.bar].intercalate tss)) =
        some [g] ∧
      g.meaning = Extent.wrapped wholeWords (Extent.anyOf (gs.map Sketch.meaning)) := by
  cases wholeWords with
  | true =>
    obtain ⟨g, hrun, hmem⟩ := @Sketch.run_joined [] [⟨[], [Extent.wordBoundary]⟩] _ _ h hne
    have hmeaning : g.meaning = Extent.anyOf (gs.map Sketch.meaning) :=
      Sketch.meaning_of_mem fun e => by rw [hmem]; simp
    refine ⟨⟨[], [Extent.wordBoundary, g.meaning, Extent.wordBoundary]⟩, ?_, ?_⟩
    · rw [wrappedTokens, if_pos rfl, Sketch.run_append, Sketch.run_append]
      have hfront : Sketch.run [Sketch.start]
          [.flatAtom (.assertion .wordBoundary), .opening .plain] =
            some [⟨[], []⟩, ⟨[], [Extent.wordBoundary]⟩] := rfl
      rw [hfront, Option.bind_some, hrun]
      rfl
    · rw [← hmeaning]
      exact Extent.anyOf_singleton _
  | false =>
    obtain ⟨g, hrun, hmem⟩ := @Sketch.run_joined [] [⟨[], []⟩] _ _ h hne
    have hmeaning : g.meaning = Extent.anyOf (gs.map Sketch.meaning) :=
      Sketch.meaning_of_mem fun e => by rw [hmem]; simp
    refine ⟨⟨[], [g.meaning]⟩, ?_, ?_⟩
    · rw [wrappedTokens, if_neg Bool.false_ne_true, Sketch.run_append, Sketch.run_append]
      have hfront : Sketch.run [Sketch.start] [.opening .plain] = some [⟨[], []⟩, ⟨[], []⟩] := rfl
      rw [hfront, Option.bind_some, hrun]
      rfl
    · rw [← hmeaning]
      exact (Extent.anyOf_singleton _).trans (Extent.chain_singleton _)

section

variable [CharacterData]

/-- The sketches of patterns that are read one by one. -/
theorem sketches_of_read {css : List (List Char)} {ns : List (Nested Re)}
    (h : List.Forall₂ (fun cs n => Re.read? cs = some n) css ns) :
    ∃ tss gs, List.Forall₂ (fun cs ts => tokens cs = some ts) css tss ∧
      List.Forall₂ (fun ts g => Sketch.run [Sketch.start] ts = some [g]) tss gs ∧
      extents ns = gs.map Sketch.meaning := by
  induction h with
  | nil => exact ⟨[], [], .nil, .nil, rfl⟩
  | cons hread _ ih =>
    obtain ⟨tss, gs, htokens, hruns, hextents⟩ := ih
    obtain ⟨ts, g, hts, -, hrun, hextent, -⟩ := Re.read?_iff hread
    exact ⟨ts :: tss, g :: gs, .cons hts htokens, .cons hrun hruns, congrArg₂ _ hextent hextents⟩

/-- The tokens of a table's text. -/
theorem tokens_sourceText {patterns : List String} {tss : List (List Token)}
    (h : List.Forall₂ (fun cs ts => tokens cs = some ts) (patterns.map String.toList) tss)
    (wholeWords : Bool) :
    tokens (Table.sourceText patterns wholeWords).toList =
      some (wrappedTokens wholeWords ([Token.bar].intercalate tss)) := by
  have hopen : ∀ rest, token? '(' ('?' :: ':' :: rest) = some (.opening .plain, rest) := fun _ => rfl
  cases wholeWords with
  | true =>
    have htext : (Table.sourceText patterns true).toList =
        '\\' :: 'b' :: '(' :: '?' :: ':' ::
          (['|'].intercalate (patterns.map String.toList) ++ [')', '\\', 'b']) := by
      simp [Table.sourceText, String.toList_intercalate]
    have htail : tokens [')', '\\', 'b'] =
        some [.closing, .flatAtom (.assertion .wordBoundary)] := by rfl
    have hboundary : ∀ rest, token? '\\' ('b' :: '(' :: rest) =
        some (.flatAtom (.assertion .wordBoundary), '(' :: rest) := fun _ => rfl
    rw [htext, tokens_cons, hboundary, Option.bind_some]
    simp only
    rw [tokens_cons, hopen, Option.bind_some]
    simp only
    rw [tokens_joined ⟨')', _, rfl, Or.inr rfl⟩ h, htail]
    rfl
  | false =>
    have htext : (Table.sourceText patterns false).toList =
        '(' :: '?' :: ':' :: (['|'].intercalate (patterns.map String.toList) ++ [')']) := by
      simp [Table.sourceText, String.toList_intercalate]
    have htail : tokens [')'] = some [.closing] := by rfl
    rw [htext, tokens_cons, hopen, Option.bind_some]
    simp only
    rw [tokens_joined ⟨')', _, rfl, Or.inr rfl⟩ h, htail]
    rfl

/-- The names in joined patterns are those in each of them. -/
theorem flatMap_groupNames {patterns : List String} {tss : List (List Token)}
    (h : List.Forall₂ (fun cs ts => tokens cs = some ts) (patterns.map String.toList) tss) :
    patterns.flatMap groupNames = tss.flatMap namesOf := by
  induction patterns generalizing tss with
  | nil =>
    cases h
    rfl
  | cons p patterns ih =>
    cases h with
    | cons hp hpatterns =>
      rw [List.flatMap_cons, List.flatMap_cons, groupNames, namesIn_eq hp, ih hpatterns]

/-- **A table that can be read** has no two groups of the same name. -/
theorem nodup_of_read?_sourceText {patterns : List String} {wholeWords : Bool} {tss : List (List Token)}
    (h : List.Forall₂ (fun cs ts => tokens cs = some ts) (patterns.map String.toList) tss)
    {n : Nested Re} (hn : Re.read? (Table.sourceText patterns wholeWords).toList = some n) :
    (patterns.flatMap groupNames).Nodup := by
  obtain ⟨ts, -, hts, hnodup, -⟩ := Re.read?_iff hn
  obtain rfl := Option.some.inj ((tokens_sourceText h wholeWords).symm.trans hts)
  rwa [namesOf_wrappedTokens, namesOf_joined, ← flatMap_groupNames h] at hnodup

/-- **The text of a table is read as the union of its patterns**, wrapped, if no two of their groups have
the same name. -/
theorem read?_sourceText {patterns : List String} {ns : List (Nested Re)}
    (h : List.Forall₂ (fun cs n => Re.read? cs = some n) (patterns.map String.toList) ns)
    (hnames : (patterns.flatMap groupNames).Nodup) (hne : patterns ≠ []) (wholeWords : Bool) :
    ∃ n, Re.read? (Table.sourceText patterns wholeWords).toList = some n ∧ n.value.Proper ∧
      n.value.extent = Extent.wrapped wholeWords (Extent.anyOf (extents ns)) := by
  obtain ⟨tss, gs, htokens, hruns, hextents⟩ := sketches_of_read h
  have htext := tokens_sourceText htokens wholeWords
  have hne' : tss ≠ [] := by
    rintro rfl
    have hlength := htokens.length_eq
    rw [List.length_map] at hlength
    exact hne (List.length_eq_zero_iff.mp hlength)
  rw [flatMap_groupNames htokens, ← namesOf_joined, ← namesOf_wrappedTokens wholeWords] at hnames
  obtain ⟨g, hrun, hmeaning⟩ := Sketch.run_wrappedTokens hruns hne' wholeWords
  obtain ⟨n, hn, hextent, hproper⟩ := (Re.ofTokens?_iff (proper_of_tokens htext)).2 g hnames hrun
  rw [hextents]
  exact ⟨n, by rw [Re.read?, htext, Option.bind_some, hn], hproper, hextent.trans hmeaning⟩

end

/-! ## 3. Tables -/

/-- The extent matches somewhere in the text. -/
def Extent.Occurs (e : Extent) (text : String) : Prop :=
  ∃ s ∈ spots none text.toList, ∃ t, e s t

/-- A union matches, wrapped or not, where one of its members does. -/
theorem Extent.wrapped_anyOf (wholeWords : Bool) (es : List Extent) (s t : Spot) :
    wrapped wholeWords (anyOf es) s t ↔ ∃ e ∈ es, wrapped wholeWords e s t := by
  cases wholeWords with
  | false => rfl
  | true =>
    constructor
    · rintro ⟨s', hs, t', ⟨e, he, hst⟩, ht⟩
      exact ⟨e, he, s', hs, t', hst, ht⟩
    · rintro ⟨e, he, s', hs, t', hst, ht⟩
      exact ⟨s', hs, t', ⟨e, he, hst⟩, ht⟩

/-- A union occurs, wrapped or not, when one of its members does. -/
theorem Extent.occurs_wrapped_anyOf (wholeWords : Bool) (es : List Extent) (text : String) :
    (wrapped wholeWords (anyOf es)).Occurs text ↔ ∃ e ∈ es, (wrapped wholeWords e).Occurs text := by
  constructor
  · rintro ⟨s, hs, t, hst⟩
    obtain ⟨e, he, hst⟩ := (wrapped_anyOf wholeWords es s t).mp hst
    exact ⟨e, he, s, hs, t, hst⟩
  · rintro ⟨e, he, s, hs, t, hst⟩
    exact ⟨s, hs, t, (wrapped_anyOf wholeWords es s t).mpr ⟨e, he, hst⟩⟩

section

variable [CharacterData]

/-- The pattern matches somewhere in the text, as a whole word if that is asked for. -/
def Finds (pattern : String) (wholeWords : Bool) (text : String) : Prop :=
  ∃ n, Re.read? pattern.toList = some n ∧ (n.value.extent.wrapped wholeWords).Occurs text

/-- The expressions of valid patterns. -/
theorem exists_reads {patterns : List String} (h : ∀ p ∈ patterns, Valid p) :
    ∃ ns, List.Forall₂ (fun cs n => Re.read? cs = some n) (patterns.map String.toList) ns := by
  induction patterns with
  | nil => exact ⟨[], .nil⟩
  | cons p patterns ih =>
    obtain ⟨hp, hpatterns⟩ := List.forall_mem_cons.mp h
    obtain ⟨n, hn⟩ := Option.isSome_iff_exists.mp hp
    obtain ⟨ns, hns⟩ := ih hpatterns
    exact ⟨n :: ns, .cons hn hns⟩

/-- The members of what is read one by one. -/
theorem exists_extent_iff {patterns : List String} {ns : List (Nested Re)}
    (h : List.Forall₂ (fun cs n => Re.read? cs = some n) (patterns.map String.toList) ns)
    (what : Extent → Prop) :
    (∃ e ∈ extents ns, what e) ↔
      ∃ p ∈ patterns, ∃ n, Re.read? p.toList = some n ∧ what n.value.extent := by
  induction patterns generalizing ns with
  | nil =>
    cases h
    simp [extents]
  | cons p patterns ih =>
    cases h with
    | @cons _ n _ ns hn hns =>
      have hp : (∃ m, Re.read? p.toList = some m ∧ what m.value.extent) ↔ what n.value.extent := by
        constructor
        · rintro ⟨m, hm, h⟩
          rwa [Option.some.inj (hn.symm.trans hm)]
        · exact fun h => ⟨n, hn, h⟩
      have hextents : extents (n :: ns) = n.value.extent :: extents ns := rfl
      simp only [hextents, List.mem_cons, exists_eq_or_imp, hp, ih hns]

namespace Table

/-- **What a table of valid patterns holds** is the program of the union of its patterns, wrapped. -/
theorem exists_program {patterns : List String} {wholeWords : Bool} {t : Table}
    (hvalid : ∀ p ∈ patterns, Valid p) (hcompile : compile? patterns wholeWords = some t)
    (hne : patterns ≠ []) :
    ∃ (ns : List (Nested Re)) (r : Re),
      List.Forall₂ (fun cs n => Re.read? cs = some n) (patterns.map String.toList) ns ∧
      r.Proper ∧ r.extent = Extent.wrapped wholeWords (Extent.anyOf (extents ns)) ∧
      t = ⟨some r.program⟩ := by
  obtain ⟨ns, hns⟩ := exists_reads hvalid
  obtain ⟨tss, -, htokens, -⟩ := sketches_of_read hns
  rw [compile?, if_neg (by simpa using hne)] at hcompile
  obtain ⟨r, hr, rfl⟩ := Option.map_eq_some_iff.mp hcompile
  obtain ⟨m, hm, -, -, rfl⟩ := Re.parse?_filter_fits.mp hr
  have hnames := nodup_of_read?_sourceText htokens hm
  obtain ⟨n, hread, hproper, hextent⟩ := read?_sourceText hns hnames hne wholeWords
  obtain rfl := Option.some.inj (hread.symm.trans hm)
  exact ⟨ns, n.value, hns, hproper, hextent, rfl⟩

/-- **A table that compiles matches what one of its patterns finds.** -/
theorem isMatch_iff {patterns : List String} {wholeWords : Bool} {t : Table}
    (hvalid : ∀ p ∈ patterns, Valid p) (hcompile : compile? patterns wholeWords = some t)
    (text : String) : t.isMatch text = true ↔ ∃ p ∈ patterns, Finds p wholeWords text := by
  by_cases hne : patterns = []
  · subst hne
    cases hcompile
    simp [isMatch]
  · obtain ⟨ns, r, hns, hproper, hextent, rfl⟩ := exists_program hvalid hcompile hne
    rw [isMatch_program hproper, hextent]
    exact (Extent.occurs_wrapped_anyOf wholeWords _ text).trans
      (exists_extent_iff hns fun e => (e.wrapped wholeWords).Occurs text)

/-- **A table of valid patterns compiles** if no two of their groups have the same name, limits of size
aside. -/
theorem exists_compile? {patterns : List String} {wholeWords : Bool}
    (hvalid : ∀ p ∈ patterns, Valid p) (hnames : (patterns.flatMap groupNames).Nodup)
    (hlimits : WithinLimits (sourceText patterns wholeWords)) :
    ∃ t, compile? patterns wholeWords = some t := by
  by_cases hne : patterns = []
  · subst hne
    exact ⟨⟨none⟩, rfl⟩
  · obtain ⟨ns, hns⟩ := exists_reads hvalid
    obtain ⟨n, hread, -, -⟩ := read?_sourceText hns hnames hne wholeWords
    obtain ⟨hlevels, hfits⟩ := hlimits n hread
    rw [compile?, if_neg (by simpa using hne),
      Re.parse?_filter_fits.mpr ⟨n, hread, hlevels, hfits, rfl⟩]
    exact ⟨_, rfl⟩

/-- **One joined expression agrees with the separate patterns.**  A table of valid patterns compiles if
no two of their groups have the same name, as is the case where no group has one; it matches a text
exactly when the table of one of its patterns does, and nothing if it is empty; and no other order or
repetition of the same patterns matches anything else. -/
theorem joined_agrees_with_separate (patterns : List String) (wholeWords : Bool)
    (hvalid : ∀ p ∈ patterns, Valid p) (hnames : (patterns.flatMap groupNames).Nodup)
    (hjoined : WithinLimits (sourceText patterns wholeWords))
    (heach : ∀ p ∈ patterns, WithinLimits (sourceText [p] wholeWords)) :
    ∃ t, compile? patterns wholeWords = some t ∧
      (∀ text, t.isMatch text = true ↔
        ∃ p ∈ patterns, ∃ single, compile? [p] wholeWords = some single ∧
          single.isMatch text = true) ∧
      (patterns = [] → ∀ text, t.isMatch text = false) ∧
      ∀ others t', (∀ p, p ∈ others ↔ p ∈ patterns) → compile? others wholeWords = some t' →
        ∀ text, t'.isMatch text = t.isMatch text := by
  obtain ⟨t, ht⟩ := exists_compile? hvalid hnames hjoined
  have hmatch := fun text => isMatch_iff hvalid ht text
  have hvalid' : ∀ p ∈ patterns, ∀ q ∈ [p], Valid q := fun p hp q hq =>
    List.mem_singleton.mp hq ▸ hvalid p hp
  have hnames' : ∀ p ∈ patterns, ([p].flatMap groupNames).Nodup := fun p hp => by
    rw [List.flatMap_singleton]
    exact (hvalid p hp).nodup_groupNames
  refine ⟨t, ht, fun text => ?_, fun hnil text => ?_, fun others t' hsame ht' text => ?_⟩
  · rw [hmatch]
    refine exists_congr fun p => and_congr_right fun hp => ?_
    constructor
    · intro hfinds
      obtain ⟨single, hsingle⟩ := exists_compile? (hvalid' p hp) (hnames' p hp) (heach p hp)
      exact ⟨single, hsingle, (isMatch_iff (hvalid' p hp) hsingle text).mpr
        ⟨p, List.mem_singleton.mpr rfl, hfinds⟩⟩
    · rintro ⟨single, hsingle, h⟩
      obtain ⟨q, hq, hfinds⟩ := (isMatch_iff (hvalid' p hp) hsingle text).mp h
      rwa [← List.mem_singleton.mp hq]
  · subst hnil
    cases ht
    rfl
  · have hothers := isMatch_iff (fun p hp => hvalid p ((hsame p).mp hp)) ht' text
    rw [Bool.eq_iff_iff, hothers, hmatch]
    exact exists_congr fun p => and_congr_left fun _ => hsame p

end Table

end

/-- Alternatives, a bar between brackets, nothing at all, a repetition and a property, joined in one
table. -/
theorem Table.joined_agrees_with_separate_signs :
    ∃ t, compile? ["1|[|]", "", "#{2,}", r"\P{ASCII}+"] true = some t ∧
      (∀ text, t.isMatch text = true ↔
        ∃ p ∈ ["1|[|]", "", "#{2,}", r"\P{ASCII}+"], ∃ single, compile? [p] true = some single ∧
          single.isMatch text = true) ∧
      t.isMatch "a ж b" = true ∧ t.isMatch "##" = false := by
  have hvalid : ∀ p ∈ ["1|[|]", "", "#{2,}", r"\P{ASCII}+"], Valid p := by decide +kernel
  have hnames : (["1|[|]", "", "#{2,}", r"\P{ASCII}+"].flatMap groupNames).Nodup := by decide +kernel
  have hjoined : WithinLimits (sourceText ["1|[|]", "", "#{2,}", r"\P{ASCII}+"] true) := by
    decide +kernel
  have heach : ∀ p ∈ ["1|[|]", "", "#{2,}", r"\P{ASCII}+"], WithinLimits (sourceText [p] true) := by
    decide +kernel
  have hruns : (compile? ["1|[|]", "", "#{2,}", r"\P{ASCII}+"] true).map
      (fun t => (t.isMatch "a ж b", t.isMatch "##")) = some (true, false) := by decide +kernel
  obtain ⟨t, ht, hmatch, -⟩ := joined_agrees_with_separate _ true hvalid hnames hjoined heach
  rw [ht] at hruns
  obtain ⟨hmatches, hfails⟩ := Prod.mk.inj (Option.some.inj hruns)
  exact ⟨t, ht, hmatch, hmatches, hfails⟩

end Shortlist.Pattern
