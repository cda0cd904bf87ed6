import Shortlist.Proofs.Pattern.Heritable
import Shortlist.Proofs.Pattern.Token
import Shortlist.Proofs.Text.AsciiCase

/-!
# Expressions that do not see the case of ASCII letters

Patterns are matched in any case, but nothing in an expression says so: the parser closes the sets of a
pattern under case while it reads them, and makes a literal only of a set with a single character.  So
every class that an expression consists of holds both cases of an ASCII letter or neither, which is a
heritable rule; a character of a literal counts as the class of that character here.

Sets between brackets are put together of others that do see the case, a range of capitals for example;
they are closed under case once, at the closing bracket.
-/

namespace Shortlist.Pattern

open Text (CaseBlind)

/-! ## 1. Sets and classes -/

namespace CharSet

/-- A set of spellings holds both cases of a letter, or neither. -/
theorem caseBlind_spellings (s : CharSet) : CaseBlind (spellings s).has := fun c =>
  congrArg (List.any · s.has) (Text.orbit_toLower c)

theorem caseBlind_letter (d : Char) : CaseBlind (letter d).has := fun c =>
  congrArg (· == Text.fold d) (Text.fold_toLower c)

theorem caseBlind_outside {s : CharSet} (h : CaseBlind s.has) : CaseBlind (outside s).has := fun c =>
  congrArg not (h c)

/-- **A closed bracket** is closed under case, whatever stands in it. -/
theorem caseBlind_bracketed (negated : Bool) (s : CharSet) : CaseBlind (bracketed negated s).has := by
  cases negated with
  | true => exact caseBlind_outside (caseBlind_spellings s)
  | false => exact caseBlind_spellings s

/-- Everything but a character without case. -/
theorem caseBlind_dot : CaseBlind dot.has := by
  refine caseBlind_outside ?_
  rw [has_single]
  exact Text.caseBlind_eq_of_isCaseless (by decide)

end CharSet

namespace CharClass

theorem caseBlind_union {s t : CharClass} (hs : CaseBlind s.has) (ht : CaseBlind t.has) :
    CaseBlind (union s t).has := fun c => by
  rw [has_union, has_union, hs c, ht c]

/-- Characters that have no other case, together. -/
theorem caseBlind_ofList :
    ∀ {cs : List Char}, (∀ c ∈ cs, CaseBlind (single c).has) → CaseBlind (ofList cs).has
  | [], _ => fun _ => rfl
  | _ :: _, h =>
    caseBlind_union (h _ List.mem_cons_self)
      (caseBlind_ofList fun c hc => h c (List.mem_cons_of_mem _ hc))

theorem caseBlind_unions :
    ∀ {classes : List CharClass}, (∀ s ∈ classes, CaseBlind s.has) → CaseBlind (unions classes).has
  | [], _ => fun _ => rfl
  | _ :: _, h =>
    caseBlind_union (h _ List.mem_cons_self)
      (caseBlind_unions fun s hs => h s (List.mem_cons_of_mem _ hs))

end CharClass

/-! ## 2. The rule -/

/-- Every class, and that of every character of a literal, holds both cases of an ASCII letter or
neither. -/
def Rule.caseBlind : Rule :=
  ⟨fun c => CaseBlind (CharClass.single c).has, fun s => CaseBlind s.has, fun _ _ => True⟩

theorem Rule.heritable_caseBlind : Rule.caseBlind.Heritable :=
  ⟨fun {s c} (hs : CaseBlind s.has) hc => by rwa [CharClass.eq_single_of_char? hc] at hs,
    CharClass.caseBlind_ofList, CharClass.caseBlind_unions, fun _ => trivial⟩

/-! ## 3. Tokens -/

/-- A set that does not see the case is an expression that does not. -/
theorem Re.caseBlind_ofSet {s : CharSet} (h : CaseBlind s.has) :
    (Re.ofSet s).Obeys Rule.caseBlind := by
  rw [← s.has_toClass] at h
  exact obeys_ofClass Rule.heritable_caseBlind h

/-- A character of a pattern stands for all its spellings. -/
theorem Token.caseBlind_char (c : Char) : (Token.char c).Obeys Rule.caseBlind :=
  Re.caseBlind_ofSet (CharSet.caseBlind_letter c)

/-- A number names a character. -/
theorem exists_literal_of_hexEscape? {count : Nat} {cs rest : List Char} {e : Escape}
    (h : hexEscape? count cs = some (e, rest)) : ∃ c, e = .literal c := by
  unfold hexEscape? at h
  split at h
  · split at h
    · simp only at h
      split at h
      · cases h
      · obtain ⟨c, -, heq⟩ := Option.map_eq_some_iff.mp h
        cases heq
        exact ⟨c, rfl⟩
    · cases h
  · split at h
    · cases h
    · obtain ⟨c, -, heq⟩ := Option.map_eq_some_iff.mp h
      cases heq
      exact ⟨c, rfl⟩

variable [CharacterData]

/-- **What is read of a bracket** is a closed one. -/
theorem exists_bracketed_of_bracket? :
    ∀ {steps : Nat} {b : Bracket} {cs rest : List Char} {s : Nested CharSet},
      bracket? steps b cs = some (s, rest) →
      ∃ negated inner, s.value = CharSet.bracketed negated inner
  | 0, _, _, _, _, h => by cases h
  | steps + 1, b, cs, rest, s, h => by
    unfold bracket? at h
    split at h
    · cases h
    · cases h
    · cases h
      exact ⟨_, _, rfl⟩
    · rename_i heq
      cases heq
      exact exists_bracketed_of_bracket? h
    · rename_i heq
      cases heq
      exact exists_bracketed_of_bracket? h
    · rename_i heq
      cases heq
      exact exists_bracketed_of_bracket? h
    · rename_i heq
      cases heq
      simp only at h
      split at h
      · exact exists_bracketed_of_bracket? h
      · split at h
        · exact exists_bracketed_of_bracket? h
        · cases h
    · rename_i heq _ _ _ _ _ _
      cases heq
      split at h
      · exact exists_bracketed_of_bracket? h
      · cases h

/-- The characters with a property are closed under case, and so are those without it. -/
theorem caseBlind_of_property? {negated : Bool} {cs rest : List Char} {s : CharSet}
    (h : property? negated cs = some (.set s, rest)) : CaseBlind s.has := by
  unfold property? at h
  split at h
  · cases h
  · obtain ⟨inner, -, heq⟩ := Option.map_eq_some_iff.mp h
    cases heq
    exact CharSet.caseBlind_bracketed negated inner

/-- **The sets that escapes stand for** do not see the case. -/
theorem caseBlind_of_escape? {cs rest : List Char} {s : CharSet}
    (h : escape? cs = some (.set s, rest)) : CaseBlind s.has := by
  have hhex : ∀ count text, hexEscape? count text ≠ some (.set s, rest) := fun count text h => by
    obtain ⟨c, hc⟩ := exists_literal_of_hexEscape? h
    cases hc
  unfold escape? at h
  split at h
  case h_2 => cases h; exact Text.caseBlind_isDigit
  case h_3 => cases h; exact CharSet.caseBlind_outside Text.caseBlind_isDigit
  case h_4 => cases h; exact Text.caseBlind_isBlank
  case h_5 => cases h; exact CharSet.caseBlind_outside Text.caseBlind_isBlank
  case h_6 => cases h; exact Text.caseBlind_isWord
  case h_7 => cases h; exact CharSet.caseBlind_outside Text.caseBlind_isWord
  case h_8 => exact caseBlind_of_property? h
  case h_9 => exact caseBlind_of_property? h
  -- everything else is a character or an assertion
  all_goals first | cases h | exact absurd h (hhex _ _) | skip
  · obtain ⟨_, -, heq⟩ := Option.map_eq_some_iff.mp h
    cases heq
  · obtain ⟨-, heq⟩ := Option.ite_none_right_eq_some.mp h
    cases heq

/-- **Every token** obeys the rule. -/
theorem obeys_caseBlind_of_token? {c : Char} {cs rest : List Char} {t : Token}
    (h : token? c cs = some (t, rest)) : t.Obeys Rule.caseBlind := by
  have hrepetition : ∀ {least most text}, repetition least most text = (t, rest) →
      t.Obeys Rule.caseBlind := fun {least most text} h => by
    obtain ⟨greedy, behind, hread, -⟩ := repetition_spec least most text
    rw [hread] at h
    cases h
    trivial
  unfold token? at h
  split at h
  · -- an opening parenthesis
    obtain ⟨_, -, heq⟩ := Option.map_eq_some_iff.mp h
    cases heq
    trivial
  · cases h
    trivial
  · cases h
    trivial
  · exact hrepetition (Option.some.inj h)
  · exact hrepetition (Option.some.inj h)
  · exact hrepetition (Option.some.inj h)
  · obtain ⟨_, -, heq⟩ := Option.map_eq_some_iff.mp h
    exact hrepetition heq
  · -- a bracket
    rw [bracketed?_eq] at h
    obtain ⟨⟨s, behind⟩, hbracket, heq⟩ := Option.map_eq_some_iff.mp h
    cases heq
    obtain ⟨negated, inner, hs⟩ := exists_bracketed_of_bracket? hbracket
    exact Re.caseBlind_ofSet (hs ▸ CharSet.caseBlind_bracketed negated inner)
  · -- an escape
    obtain ⟨⟨e, behind⟩, hescape, heq⟩ := Option.map_eq_some_iff.mp h
    cases e with
    | literal d =>
      cases heq
      exact Token.caseBlind_char d
    | set s =>
      cases heq
      exact Re.caseBlind_ofSet (caseBlind_of_escape? hescape)
    | assertion a =>
      cases heq
      trivial
  · cases h
    exact Re.caseBlind_ofSet CharSet.caseBlind_dot
  · cases h
    trivial
  · cases h
    trivial
  · cases h
    exact Token.caseBlind_char c

/-- **Every expression that is read of a pattern** obeys the rule. -/
theorem Re.obeys_caseBlind_of_parse? {cs : List Char} {r : Re} (h : Re.parse? cs = some r) :
    r.Obeys Rule.caseBlind := by
  obtain ⟨n, hn, rfl⟩ := Option.map_eq_some_iff.mp h
  obtain ⟨ts, hts, hn⟩ := Option.bind_eq_some_iff.mp (Option.filter_eq_some_iff.mp hn).1
  exact Re.obeys_of_ofTokens? Rule.heritable_caseBlind (forall_of_tokens obeys_caseBlind_of_token? hts)
    hn

end Shortlist.Pattern
