import Shortlist.Proofs.Pattern.Local
import Shortlist.Proofs.Pattern.Proper

/-!
# Tokens of joined patterns

The tokens of patterns that are joined with bars are the tokens of each pattern with bars in between,
as no token reaches over a stop.  Every token is also made of proper expressions only, which is where
the bounds of counts in braces are checked.
-/

namespace Shortlist.Pattern

/-! ## 1. One token -/

/-- A repetition that stands behind its sign. -/
theorem local_repetition {cs rest : List Char} {t : Token} {least : Nat} {most : Option Nat}
    (hle : ∀ m ∈ most, least ≤ m) (h : repetition least most cs = (t, rest)) :
    t.Proper ∧ rest.length ≤ cs.length ∧
      ∀ {tail}, Stops tail → repetition least most (cs ++ tail) = (t, rest ++ tail) := by
  obtain ⟨greedy, behind, hread, hlength⟩ := repetition_spec least most cs
  have hmore : ∀ {tail}, Stops tail → repetition least most (cs ++ tail) = (t, rest ++ tail) :=
    fun htail => by rw [repetition_append htail, h]
  rw [hread] at h
  cases h
  exact ⟨hle, hlength, hmore⟩

variable [CharacterData]

/-- **No name of a group reaches over a stop.** -/
theorem local_groupName? : Local groupName? := by
  intro cs group rest h
  unfold groupName? at h
  split at h
  · rename_i c more d behind htake hdrop
    obtain ⟨hname, heq⟩ := Option.ite_none_right_eq_some.mp h
    cases heq
    refine ⟨(Text.length_lt_of_found hdrop).le, fun {tail} _ => ?_⟩
    obtain ⟨htake', hdrop'⟩ := Text.while_append_of_found hdrop tail
    rw [groupName?, htake', hdrop', htake]
    exact if_pos hname
  · cases h

/-- **What a parenthesis opens** does not reach over a stop. -/
theorem local_opening? : Local opening? := by
  intro cs group rest h
  unfold opening? at h
  split at h
  · cases h
    exact ⟨Nat.le_succ_of_le (Nat.le_succ _), fun _ => rfl⟩
  · obtain ⟨hlength, hread⟩ := local_groupName? h
    exact ⟨Nat.le_succ_of_le (Nat.le_succ_of_le hlength), fun htail => hread htail⟩
  · obtain ⟨hlength, hread⟩ := local_groupName? h
    refine ⟨?_, fun htail => hread htail⟩
    simp only [List.length_cons]
    omega
  · cases h
  · rename_i hmark
    cases h
    refine ⟨Nat.le_refl _, fun {tail} htail => ?_⟩
    have hnone : ∀ rest, cs ++ tail = '?' :: rest → False :=
      htail.not_head_of_append (by decide) (by decide) hmark
    rw [opening?]
    · exact fun rest => hnone (':' :: rest)
    · exact fun rest => hnone ('<' :: rest)
    · exact fun rest => hnone ('P' :: '<' :: rest)
    · exact hnone

/-- A bracket goes on behind its front. -/
theorem bracketed?_eq (cs : List Char) :
    bracketed? cs =
      (bracket? ((Bracket.start cs).2.length + 1) (Bracket.start cs).1 (Bracket.start cs).2).map
        fun (s, rest) => (.atom (s.map Re.ofSet), rest) :=
  rfl

theorem local_bracketed? {cs rest : List Char} {t : Token} (h : bracketed? cs = some (t, rest)) :
    t.Proper ∧ rest.length ≤ cs.length ∧
      ∀ {tail}, Stops tail → bracketed? (cs ++ tail) = some (t, rest ++ tail) := by
  rw [bracketed?_eq] at h
  obtain ⟨⟨s, behind⟩, hbracket, heq⟩ := Option.map_eq_some_iff.mp h
  cases heq
  obtain ⟨hlength, hread⟩ := local_bracket? hbracket
  refine ⟨Re.proper_ofSet _, hlength.trans (Bracket.length_start cs), fun {tail} htail => ?_⟩
  have hsteps : (Bracket.start cs).2.length + 1 ≤ ((Bracket.start cs).2 ++ tail).length + 1 := by
    rw [List.length_append]
    omega
  rw [bracketed?_eq, Bracket.start_append htail, hread hsteps htail]
  rfl

theorem local_escapeToken? {cs rest : List Char} {t : Token} (h : escapeToken? cs = some (t, rest)) :
    t.Proper ∧ rest.length ≤ cs.length ∧
      ∀ {tail}, Stops tail → escapeToken? (cs ++ tail) = some (t, rest ++ tail) := by
  obtain ⟨⟨e, behind⟩, hescape, heq⟩ := Option.map_eq_some_iff.mp h
  obtain ⟨hlength, hread⟩ := local_escape? hescape
  cases e with
  | literal c =>
    cases heq
    exact ⟨Token.proper_char c, hlength, fun htail => by rw [escapeToken?, hread htail]; rfl⟩
  | set s =>
    cases heq
    exact ⟨Re.proper_ofSet s, hlength, fun htail => by rw [escapeToken?, hread htail]; rfl⟩
  | assertion a =>
    cases heq
    exact ⟨trivial, hlength, fun htail => by rw [escapeToken?, hread htail]; rfl⟩

/-- **No token reaches over a stop**, and every token is proper. -/
theorem local_token? {c : Char} {cs rest : List Char} {t : Token}
    (h : token? c cs = some (t, rest)) :
    t.Proper ∧ rest.length ≤ cs.length ∧
      ∀ {tail}, Stops tail → token? c (cs ++ tail) = some (t, rest ++ tail) := by
  unfold token? at h
  split at h
  · obtain ⟨⟨group, behind⟩, hopening, heq⟩ := Option.map_eq_some_iff.mp h
    cases heq
    obtain ⟨hlength, hread⟩ := local_opening? hopening
    exact ⟨trivial, hlength, fun htail => by simp only [token?, hread htail, Option.map_some]⟩
  · cases h
    exact ⟨trivial, Nat.le_refl _, fun _ => rfl⟩
  · cases h
    exact ⟨trivial, Nat.le_refl _, fun _ => rfl⟩
  · obtain ⟨hproper, hlength, hread⟩ := local_repetition (by simp) (Option.some.inj h)
    exact ⟨hproper, hlength, fun htail => congrArg some (hread htail)⟩
  · obtain ⟨hproper, hlength, hread⟩ := local_repetition (by simp) (Option.some.inj h)
    exact ⟨hproper, hlength, fun htail => congrArg some (hread htail)⟩
  · obtain ⟨hproper, hlength, hread⟩ := local_repetition (by simp) (Option.some.inj h)
    exact ⟨hproper, hlength, fun htail => congrArg some (hread htail)⟩
  · obtain ⟨⟨least, most, behind⟩, hcounts, heq⟩ := Option.map_eq_some_iff.mp h
    obtain ⟨hlength, hle, hread⟩ := local_counts? hcounts
    obtain ⟨hproper, hlength', hread'⟩ := local_repetition hle heq
    refine ⟨hproper, hlength'.trans hlength, fun htail => ?_⟩
    simp only [token?, hread htail, Option.map_some, hread' htail]
  · exact local_bracketed? h
  · exact local_escapeToken? h
  · cases h
    exact ⟨Re.proper_ofSet CharSet.dot, Nat.le_refl _, fun _ => rfl⟩
  · cases h
    exact ⟨trivial, Nat.le_refl _, fun _ => rfl⟩
  · cases h
    exact ⟨trivial, Nat.le_refl _, fun _ => rfl⟩
  · cases h
    refine ⟨Token.proper_char c, Nat.le_refl _, fun _ => ?_⟩
    rw [token?]
    all_goals assumption

/-! ## 2. Texts -/

/-- More steps than characters do not change the tokens. -/
theorem tokensWithin_eq :
    ∀ {steps more : Nat} {cs : List Char}, cs.length ≤ steps → cs.length ≤ more →
      tokensWithin steps cs = tokensWithin more cs
  | steps, more, [], _, _ => by rw [tokensWithin, tokensWithin]
  | steps + 1, more + 1, c :: cs, hsteps, hmore => by
    rw [tokensWithin, tokensWithin]
    cases h : token? c cs with
    | none => rfl
    | some read =>
      obtain ⟨t, rest⟩ := read
      have hlength := (local_token? h).2.1
      rw [List.length_cons] at hsteps hmore
      simp only
      rw [tokensWithin_eq (show rest.length ≤ steps by omega) (show rest.length ≤ more by omega)]

/-- **The tokens of a text are its first token and those of the rest.** -/
theorem tokens_cons (c : Char) (cs : List Char) :
    tokens (c :: cs) = (token? c cs).bind fun (t, rest) => (tokens rest).map (t :: ·) := by
  rw [tokens, List.length_cons, tokensWithin]
  cases h : token? c cs with
  | none => rfl
  | some read =>
    obtain ⟨t, rest⟩ := read
    have hlength := (local_token? h).2.1
    simp only [Option.bind_some]
    rw [tokens, tokensWithin_eq hlength (Nat.le_refl _)]

/-- The first token of a text that has tokens. -/
theorem tokens_cons_eq_some {c : Char} {cs : List Char} {ts : List Token}
    (h : tokens (c :: cs) = some ts) :
    ∃ t rest ts', token? c cs = some (t, rest) ∧ tokens rest = some ts' ∧ ts = t :: ts' := by
  rw [tokens_cons] at h
  obtain ⟨⟨t, rest⟩, hread, h⟩ := Option.bind_eq_some_iff.mp h
  obtain ⟨ts', hrest, heq⟩ := Option.map_eq_some_iff.mp h
  exact ⟨t, rest, ts', hread, hrest, heq.symm⟩

/-- What holds of every token that can be read holds of all tokens of a text. -/
theorem forall_of_tokens {P : Token → Prop}
    (hread : ∀ {c cs t rest}, token? c cs = some (t, rest) → P t) {cs : List Char}
    {ts : List Token} (h : tokens cs = some ts) : ∀ t ∈ ts, P t := by
  induction hlength : cs.length using Nat.strongRecOn generalizing cs ts with
  | ind n ih =>
    cases cs with
    | nil =>
      cases h
      exact fun t ht => absurd ht List.not_mem_nil
    | cons c cs =>
      obtain ⟨t, rest, ts', hfirst, hrest, rfl⟩ := tokens_cons_eq_some h
      obtain ⟨-, hle, -⟩ := local_token? hfirst
      rw [List.length_cons] at hlength
      exact List.forall_mem_cons.mpr ⟨hread hfirst, ih rest.length (by omega) hrest rfl⟩

/-- All tokens of a text are proper. -/
theorem proper_of_tokens {cs : List Char} {ts : List Token} (h : tokens cs = some ts) :
    ∀ t ∈ ts, t.Proper :=
  forall_of_tokens (fun hread => (local_token? hread).1) h

/-- **The tokens in front of a stop** are those of the text alone. -/
theorem tokens_append {cs tail : List Char} {ts : List Token} (h : tokens cs = some ts)
    (htail : Stops tail) : tokens (cs ++ tail) = (tokens tail).map (ts ++ ·) := by
  induction hlength : cs.length using Nat.strongRecOn generalizing cs ts with
  | ind n ih =>
    cases cs with
    | nil =>
      cases h
      rw [List.nil_append]
      exact Option.map_id'.symm
    | cons c cs =>
      obtain ⟨t, rest, ts', hread, hrest, rfl⟩ := tokens_cons_eq_some h
      obtain ⟨-, hle, hmore⟩ := local_token? hread
      rw [List.length_cons] at hlength
      rw [List.cons_append, tokens_cons, hmore htail, Option.bind_some]
      simp only
      rw [ih rest.length (by omega) hrest rfl, Option.map_map]
      rfl

/-- **The tokens of joined patterns** are those of each of them, with bars in between. -/
theorem tokens_joined {tail : List Char} (htail : Stops tail) {css : List (List Char)}
    {tss : List (List Token)} (h : List.Forall₂ (fun cs ts => tokens cs = some ts) css tss) :
    tokens (['|'].intercalate css ++ tail) = (tokens tail).map ([Token.bar].intercalate tss ++ ·) := by
  induction h with
  | nil => exact Option.map_id'.symm
  | @cons cs ts css tss hcs hcss ih =>
    cases hcss with
    | nil =>
      rw [List.intercalate_singleton, List.intercalate_singleton]
      exact tokens_append hcs htail
    | cons hnext hrest =>
      rw [List.intercalate_cons_cons, List.intercalate_cons_cons, List.append_assoc,
        List.append_assoc, List.singleton_append, tokens_append hcs ⟨'|', _, rfl, Or.inl rfl⟩,
        tokens_cons]
      simp only [token?, Option.bind_some]
      rw [ih, Option.map_map, Option.map_map]
      congr 1
      funext ts
      simp

end Shortlist.Pattern
