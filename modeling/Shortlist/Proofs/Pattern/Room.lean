import Shortlist.Pattern.Table
import Shortlist.Proofs.Pattern.Joined
import Shortlist.Proofs.Text.AsciiCase
import Shortlist.Proofs.Text.Folding

/-!
# Tables that compile

Whether a table compiles is settled by running the compiler on it, and for a table of some hundred
letters that takes long: every letter is looked up among all spans of the case folding, to see what its
spellings are.  What the lookups say is the same for all letters from A to Z and for all Arabic ones, so
it is settled here once for each of the two.

`quickToken?` reads a letter without looking it up, and is the reader of tokens nevertheless
(`quickToken?_eq`).
-/

namespace Shortlist.Pattern

/-! ## 1. Code points without case -/

/-- The span moves no code point from `lo` to `hi`, and moves nothing onto them. -/
def Unmoved (lo hi : Nat) (s : Text.Span) : Prop :=
  (s.last < lo ∨ hi < s.first) ∧
    ((s.last + s.shift).toNat < lo ∨ hi < (s.first + s.shift).toNat)

/-- No code point from `lo` to `hi` has another case. -/
def Uncased (lo hi : Nat) : Prop := ∀ s ∈ Text.foldSpans, Unmoved lo hi s

instance (lo hi : Nat) : Decidable (Uncased lo hi) :=
  inferInstanceAs (Decidable (∀ s ∈ Text.foldSpans, (_ ∨ _) ∧ (_ ∨ _)))

/-- A character without another case is caseless. -/
theorem Uncased.isCaseless {lo hi : Nat} (h : Uncased lo hi) {c : Char} (hlo : lo ≤ c.toNat)
    (hhi : c.toNat ≤ hi) : Text.isCaseless c = true := by
  have hstays : Text.shifted Text.foldSpans c.toNat = c.toNat := by
    refine (Text.shifted_eq_self_or c.toNat Text.foldSpans).resolve_right ?_
    rintro ⟨s, hs, hmoves, -⟩
    have hbounds := Text.Span.bounds_of_moves hmoves
    have haway := (h s hs).1
    omega
  have halone : Text.foldSpans.filterMap (Text.Span.source? · c.toNat) = [] := by
    refine List.filterMap_eq_nil_iff.mpr fun s hs => if_neg fun hfound => ?_
    have haway := (h s hs).2
    simp only [Text.Span.moves, Bool.and_eq_true, decide_eq_true_eq, beq_iff_eq] at hfound
    omega
  rw [Text.isCaseless, Text.orbit, hstays, halone, Char.ofNat_toNat]
  exact beq_self_eq_true [c]

/-! ## 2. Reading letters -/

/-- Lower case is the case of the letters a to z. -/
theorem mem_small_of_isLower {c : Char} (h : c.isLower = true) :
    c ∈ Text.capitals.map Char.toLower := by
  have hall : ∀ i < 26, Char.ofNat (97 + i) ∈ Text.capitals.map Char.toLower := by decide +kernel
  have hbounds : 97 ≤ c.toNat ∧ c.toNat ≤ 122 :=
    (Bool.and_eq_true_iff.mp h).imp of_decide_eq_true of_decide_eq_true
  have hc := hall (c.toNat - 97) (by omega)
  rwa [Nat.add_sub_cancel' hbounds.1, Char.ofNat_toNat] at hc

/-- The class of a letter from A to Z: both cases of it, and a sign of its own for two of the letters. -/
def letterClass (c : Char) : CharClass :=
  CharClass.ofList ([c.toUpper, c.toLower] ++
    match c.toLower with
    | 'k' => ['\u212a']
    | 's' => ['\u017f']
    | _ => [])

/-- The token of a letter that is read without looking it up: a letter from A to Z stands for its class,
an Arabic one for itself. -/
def letterToken? (c : Char) : Option Token :=
  if c.isUpper || c.isLower then some (.flatAtom (.set (letterClass c)))
  else if 0x621 ≤ c.toNat && c.toNat ≤ 0x64A then some (.flatAtom (.literal c []))
  else none

/-- The class of a character without case has no other one. -/
theorem toClass_letter_of_isCaseless {c : Char} (h : Text.isCaseless c = true) :
    (CharSet.letter c).toClass = CharClass.single c := by
  have hranges : (CharSet.letter c).ranges = [(c.toNat, c.toNat)] := by
    rw [CharSet.ranges, eq_of_beq h]
    rfl
  simp only [CharSet.toClass, CharClass.single, hranges]

/-- A letter that is read without looking it up is read as what it stands for. -/
theorem char_of_letterToken? {c : Char} {t : Token} (h : letterToken? c = some t) :
    Token.char c = t := by
  have hletters : (Text.capitals ++ Text.capitals.map Char.toLower).all
      (fun d => Token.char d == .flatAtom (.set (letterClass d))) = true := by decide +kernel
  have harabic : Uncased 0x621 0x64A := by decide +kernel
  unfold letterToken? at h
  split at h
  · rename_i hletter
    cases h
    refine eq_of_beq (List.all_eq_true.mp hletters c (List.mem_append.mpr ?_))
    exact (Bool.or_eq_true_iff.mp hletter).imp Text.mem_capitals_of_isUpper mem_small_of_isLower
  · split at h
    · rename_i hrange
      cases h
      rw [Bool.and_eq_true, decide_eq_true_eq, decide_eq_true_eq] at hrange
      have hcaseless := harabic.isCaseless hrange.1 hrange.2
      rw [Token.char, Re.ofSet, toClass_letter_of_isCaseless hcaseless, Re.ofClass,
        CharClass.char?_single]
    · cases h

section

variable [CharacterData]

/-- Reads a token; letters are not looked up. -/
def quickToken? (c : Char) (rest : List Char) : Option (Token × List Char) :=
  match letterToken? c with
  | some t => some (t, rest)
  | none => token? c rest

/-- **Reading quickly is reading.** -/
theorem quickToken?_eq (c : Char) (rest : List Char) : quickToken? c rest = token? c rest := by
  unfold quickToken?
  split
  · rename_i t ht
    rw [← char_of_letterToken? ht]
    have hletter : (letterToken? c).isSome = true := ht ▸ rfl
    unfold token?
    split
    -- none of the characters with a meaning of their own is a letter
    all_goals first | rfl | exact absurd hletter (by decide)
  · rfl

/-- The tokens of a text, read quickly. -/
def quickTokens : (steps : Nat) → List Char → Option (List Token)
  | _, [] => some []
  | 0, _ => none
  | steps + 1, c :: rest =>
    match quickToken? c rest with
    | some (t, rest) => (quickTokens steps rest).map (t :: ·)
    | none => none

theorem quickTokens_eq : ∀ (steps : Nat) (cs : List Char), quickTokens steps cs = tokensWithin steps cs
  | _, [] => by rw [quickTokens, tokensWithin]
  | 0, _ :: _ => rfl
  | steps + 1, c :: rest => by
    simp only [quickTokens, tokensWithin, quickToken?_eq]
    cases token? c rest with
    | none => rfl
    | some found => simp only [quickTokens_eq]

end

/-! ## 3. Tables -/

namespace Table

/-- The characters of the text that patterns are joined into. -/
theorem toList_sourceText (patterns : List String) (wholeWords : Bool) :
    (sourceText patterns wholeWords).toList =
      (if wholeWords then ['\\', 'b'] else []) ++ ['(', '?', ':'] ++
        ['|'].intercalate (patterns.map String.toList) ++ [')'] ++
          (if wholeWords then ['\\', 'b'] else []) := by
  cases wholeWords <;> simp [sourceText, String.toList_intercalate]

variable [CharacterData]

/-- Whether the text that patterns are joined into is read within the limits. -/
def isRoomy (patterns : List String) (wholeWords : Bool) : Bool :=
  let mark := if wholeWords then ['\\', 'b'] else []
  let cs := mark ++ ['(', '?', ':'] ++ ['|'].intercalate (patterns.map String.toList) ++ [')'] ++ mark
  ((quickTokens cs.length cs).bind Re.ofTokens?).any fun n => n.levels ≤ maxLevels && n.value.fits

/-- **A roomy table compiles.** -/
theorem exists_compile?_of_isRoomy {patterns : List String} {wholeWords : Bool}
    (h : isRoomy patterns wholeWords = true) : ∃ t, compile? patterns wholeWords = some t := by
  rw [isRoomy, quickTokens_eq, ← toList_sourceText, ← tokens, Option.any_eq_true] at h
  obtain ⟨n, hn, h⟩ := h
  rw [Bool.and_eq_true, decide_eq_true_eq] at h
  obtain ⟨hlevels, hfits⟩ := h
  unfold compile?
  split
  · exact ⟨_, rfl⟩
  · rw [Re.parse?_filter_fits.mpr ⟨n, hn, hlevels, hfits, rfl⟩]
    exact ⟨_, rfl⟩

end Table

end Shortlist.Pattern
