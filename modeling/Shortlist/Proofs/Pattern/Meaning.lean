import Mathlib.Logic.Relation
import Shortlist.Pattern.Basic
import Shortlist.Proofs.Pattern.CharClass

/-!
# What expressions mean

The meaning of an expression is its *extent*: between which spots of a text it can match.  Which match
is preferred plays no part here, so the extent says whether a text matches and not what is found.

Expressions are put together in a simplified form (`Re.sequence`, `Re.choice`, `Re.repetition`), which
moves common beginnings to the front, merges characters into classes and drops rounds.  The results of
this file are that none of this changes the extent: it is the chain, the union and the iteration of
the extents of the parts.  From there on nothing looks at the simplified form any more.
-/

namespace Shortlist.Pattern

open Relation (Comp)

/-! ## 1. Extents -/

/-- A spot in a text: the character before it, if there is one, and the text behind it. -/
structure Spot where
  before : Option Char
  rest : List Char

/-- The place at a spot, as assertions see it. -/
def Spot.place (s : Spot) : Place := ⟨s.before, s.rest.head?⟩

/-- Between which spots something can match. -/
abbrev Extent := Spot → Spot → Prop

namespace Extent

/-- One character that passes a test. -/
def one (test : Char → Bool) : Extent := fun s t =>
  ∃ c, test c = true ∧ s.rest = c :: t.rest ∧ t.before = some c

/-- One extent behind the other. -/
def chain (es : List Extent) : Extent := es.foldr Comp Eq

/-- Any of several extents. -/
def anyOf (es : List Extent) : Extent := fun s t => ∃ e ∈ es, e s t

/-- So many rounds. -/
def rounds (e : Extent) : Nat → Extent
  | 0 => Eq
  | n + 1 => Comp e (rounds e n)

/-- At least `least` rounds and at most `most`, if there is a limit. -/
def repeated (least : Nat) (most : Option Nat) (e : Extent) : Extent := fun s t =>
  ∃ n, least ≤ n ∧ (∀ m ∈ most, n ≤ m) ∧ rounds e n s t

/-! ### Chains -/

@[simp] theorem chain_nil : chain [] = Eq := rfl

@[simp] theorem chain_cons (e : Extent) (es : List Extent) :
    chain (e :: es) = Comp e (chain es) := rfl

theorem chain_singleton (e : Extent) : chain [e] = e := Relation.comp_eq

/-- A chain of two chains is one chain. -/
theorem chain_append : ∀ es fs : List Extent, chain (es ++ fs) = Comp (chain es) (chain fs)
  | [], fs => (Relation.eq_comp).symm
  | e :: es, fs => by
    rw [List.cons_append, chain_cons, chain_cons, chain_append es fs, Relation.comp_assoc]

/-- Flattening chains of chains. -/
theorem chain_flatten : ∀ ess : List (List Extent), chain ess.flatten = chain (ess.map chain)
  | [] => rfl
  | es :: ess => by rw [List.flatten_cons, chain_append, List.map_cons, chain_cons, chain_flatten ess]

/-! ### Unions -/

theorem anyOf_singleton (e : Extent) : anyOf [e] = e := by
  funext s t
  simp [anyOf]

theorem anyOf_cons (e : Extent) (es : List Extent) :
    anyOf (e :: es) = fun s t => e s t ∨ anyOf es s t := by
  funext s t
  simp [anyOf]

/-- Flattening unions of unions. -/
theorem anyOf_flatten (ess : List (List Extent)) : anyOf ess.flatten = anyOf (ess.map anyOf) := by
  funext s t
  simp only [anyOf, List.mem_flatten, List.mem_map, eq_iff_iff]
  constructor
  · rintro ⟨e, ⟨es, hes, he⟩, h⟩
    exact ⟨_, ⟨es, hes, rfl⟩, e, he, h⟩
  · rintro ⟨_, ⟨es, hes, rfl⟩, e, he, h⟩
    exact ⟨e, ⟨es, hes, he⟩, h⟩

/-- A union behind something is the union of what stands behind it. -/
theorem comp_anyOf (e : Extent) (es : List Extent) :
    Comp e (anyOf es) = anyOf (es.map (Comp e)) := by
  funext s t
  simp only [anyOf, Comp, List.mem_map, eq_iff_iff]
  constructor
  · rintro ⟨u, hsu, f, hf, hut⟩
    exact ⟨_, ⟨f, hf, rfl⟩, u, hsu, hut⟩
  · rintro ⟨_, ⟨f, hf, rfl⟩, u, hsu, hut⟩
    exact ⟨u, hsu, f, hf, hut⟩

/-! ### Rounds -/

theorem rounds_one (e : Extent) : rounds e 1 = e := Relation.comp_eq

/-- Rounds behind rounds. -/
theorem rounds_add (e : Extent) : ∀ a b, rounds e (a + b) = Comp (rounds e a) (rounds e b)
  | 0, b => by rw [Nat.zero_add, rounds, Relation.eq_comp]
  | a + 1, b => by
    rw [Nat.add_right_comm, rounds, rounds_add e a b, rounds, Relation.comp_assoc]

/-- Between as many rounds at least as at most there is just that many. -/
theorem repeated_self (n : Nat) (e : Extent) : repeated n (some n) e = rounds e n := by
  funext s t
  refine propext ⟨?_, fun h => ⟨n, Nat.le_refl n, by simp, h⟩⟩
  rintro ⟨m, hle, hm, h⟩
  have hn : m = n := Nat.le_antisymm (hm n rfl) hle
  exact hn ▸ h

/-- Fixed rounds in front raise both bounds. -/
theorem comp_rounds_repeated (a least : Nat) (most : Option Nat) (e : Extent) :
    Comp (rounds e a) (repeated least most e) = repeated (a + least) (most.map (a + ·)) e := by
  funext s t
  refine propext ⟨?_, ?_⟩
  · rintro ⟨u, hsu, n, hle, hn, hut⟩
    refine ⟨a + n, by omega, fun m hm => ?_, ?_⟩
    · obtain ⟨k, hk, rfl⟩ := Option.map_eq_some_iff.mp hm
      exact Nat.add_le_add_left (hn k hk) a
    · rw [rounds_add]
      exact ⟨u, hsu, hut⟩
  · rintro ⟨n, hle, hn, h⟩
    obtain ⟨b, rfl⟩ := Nat.le.dest (Nat.le_trans (Nat.le_add_right a least) hle)
    rw [rounds_add] at h
    obtain ⟨u, hsu, hut⟩ := h
    refine ⟨u, hsu, b, by omega, fun m hm => ?_, hut⟩
    have := hn (a + m) (by rw [hm]; rfl)
    omega

/-- Rounds that may be left out: none at all, or one and then the others. -/
theorem repeated_zero_succ (extra : Nat) (e : Extent) :
    repeated 0 (some (extra + 1)) e = fun s t => s = t ∨ Comp e (repeated 0 (some extra) e) s t := by
  funext s t
  refine propext ⟨?_, ?_⟩
  · rintro ⟨n, -, hn, h⟩
    have hle := hn (extra + 1) rfl
    match n, h with
    | 0, h => exact Or.inl h
    | n + 1, ⟨u, hsu, hut⟩ =>
      refine Or.inr ⟨u, hsu, n, Nat.zero_le n, fun m hm => ?_, hut⟩
      obtain rfl := Option.some.inj hm
      omega
  · rintro (rfl | ⟨u, hsu, n, -, hn, hut⟩)
    · exact ⟨0, Nat.le_refl 0, fun _ _ => Nat.zero_le _, rfl⟩
    · refine ⟨n + 1, Nat.zero_le _, fun m hm => ?_, u, hsu, hut⟩
      obtain rfl := Option.some.inj hm
      have := hn extra rfl
      omega

/-- Any number of rounds is none, or at least one. -/
theorem repeated_zero_none (e : Extent) :
    repeated 0 none e = fun s t => s = t ∨ repeated 1 none e s t := by
  funext s t
  refine propext ⟨?_, ?_⟩
  · rintro ⟨n, -, hn, h⟩
    match n, h with
    | 0, h => exact Or.inl h
    | n + 1, h => exact Or.inr ⟨n + 1, Nat.le_add_left 1 n, hn, h⟩
  · rintro (rfl | ⟨n, -, hn, h⟩)
    · exact ⟨0, Nat.le_refl 0, fun _ _ => Nat.zero_le _, rfl⟩
    · exact ⟨n, Nat.zero_le n, hn, h⟩

/-- Rounds of what takes nothing are as good as a single one. -/
theorem rounds_succ_of_idle {e : Extent} (h : ∀ s t, e s t → s = t) :
    ∀ n, rounds e (n + 1) = e
  | 0 => rounds_one e
  | n + 1 => by
    rw [rounds, rounds_succ_of_idle h n]
    funext s t
    refine propext ⟨?_, fun hst => ⟨t, hst, ?_⟩⟩
    · rintro ⟨u, hsu, hut⟩
      rw [h s u hsu]
      exact hut
    · have heq := h s t hst
      subst heq
      exact hst

/-- **More than one round of what takes nothing is one round.** -/
theorem repeated_of_idle {e : Extent} (h : ∀ s t, e s t → s = t) {least : Nat} {most : Option Nat}
    (hle : ∀ m ∈ most, least ≤ m) :
    repeated (min least 1) (some (min (most.getD 1) 1)) e = repeated least most e := by
  have hmost : ∀ m, most = some m → least ≤ m := fun m hm => hle m hm
  funext s t
  simp only [repeated, Option.mem_some_iff, forall_eq', eq_iff_iff]
  constructor
  · rintro ⟨n, hleast, hn, hst⟩
    match n with
    | 0 => exact ⟨0, by omega, fun _ _ => Nat.zero_le _, hst⟩
    | 1 =>
      -- one round stands for as many as are asked for, and for one if none is
      refine ⟨max least 1, Nat.le_max_left _ _, fun m hm => ?_, ?_⟩
      · rw [hm, Option.getD_some] at hn
        exact Nat.max_le.mpr ⟨hle m hm, by omega⟩
      · obtain ⟨k, hk⟩ : ∃ k, max least 1 = k + 1 := ⟨max least 1 - 1, by omega⟩
        rw [hk, rounds_succ_of_idle h]
        rwa [rounds_one] at hst
    | n + 2 => omega
  · rintro ⟨n, hleast, hn, hst⟩
    match n with
    | 0 => exact ⟨0, by omega, Nat.zero_le _, hst⟩
    | n + 1 =>
      refine ⟨1, Nat.min_le_right _ _, ?_, ?_⟩
      · cases hm : most with
        | none => exact Nat.le_refl _
        | some m =>
          have := hn m hm
          rw [Option.getD_some]
          omega
      · rw [rounds_one]
        rwa [rounds_succ_of_idle h] at hst

end Extent

/-! ## 2. The extent of an expression -/

namespace Re

/-- Between which spots an expression can match. -/
def extent : Re → Extent
  | .empty => Eq
  | .literal c cs => Extent.chain ((c :: cs).map fun c => Extent.one (· == c))
  | .set s => Extent.one s.has
  | .assertion a => fun s t => s = t ∧ a.holds s.place = true
  | .group _ r => r.extent
  | .seq a b => Comp a.extent b.extent
  | .alt a b => fun s t => a.extent s t ∨ b.extent s t
  | .repeated least most _ r => Extent.repeated least most r.extent

/-- An expression that takes nothing matches at a spot only. -/
theorem eq_of_takesNothing : ∀ {r : Re}, r.takesNothing = true → ∀ {s t}, r.extent s t → s = t
  | .empty, _, _, _, h => h
  | .assertion _, _, _, _, h => h.1
  | .group _ r, hr, _, _, h => eq_of_takesNothing (r := r) hr h
  | .seq a b, hr, _, _, ⟨_, ha, hb⟩ => by
    rw [takesNothing, Bool.and_eq_true] at hr
    exact (eq_of_takesNothing hr.1 ha).trans (eq_of_takesNothing hr.2 hb)
  | .alt a b, hr, _, _, h => by
    rw [takesNothing, Bool.and_eq_true] at hr
    exact h.elim (eq_of_takesNothing hr.1) (eq_of_takesNothing hr.2)
  | .repeated least most greedy r, hr, s, t, ⟨n, _, _, h⟩ => by
    have hidle : ∀ s t, r.extent s t → s = t := fun _ _ => eq_of_takesNothing (r := r) hr
    match n, h with
    | 0, h => exact h
    | n + 1, h =>
      rw [Extent.rounds_succ_of_idle hidle] at h
      exact hidle s t h

/-! ## 3. Sequences -/

/-- The parts of an expression, one behind the other, are the expression. -/
theorem chain_parts : ∀ r : Re, Extent.chain (r.parts.map extent) = r.extent
  | .empty => rfl
  | .seq a b => by
    rw [parts, List.map_cons, Extent.chain_cons, chain_parts b, extent]
  | .literal _ _ => Extent.chain_singleton _
  | .set _ => Extent.chain_singleton _
  | .assertion _ => Extent.chain_singleton _
  | .group _ _ => Extent.chain_singleton _
  | .alt _ _ => Extent.chain_singleton _
  | .repeated _ _ _ _ => Extent.chain_singleton _

/-- Joining literals does not change what a chain means. -/
theorem chain_joinLiterals :
    ∀ rs : List Re, Extent.chain ((joinLiterals rs).map extent) = Extent.chain (rs.map extent)
  | [] => rfl
  | r :: rest => by
    rw [List.map_cons, Extent.chain_cons, ← chain_joinLiterals rest]
    conv => lhs; unfold joinLiterals
    split
    · rename_i c cs d ds behind heq
      rw [heq, List.map_cons, List.map_cons, Extent.chain_cons, Extent.chain_cons,
        ← Relation.comp_assoc]
      congr 1
      rw [extent, extent, extent, ← Extent.chain_append, ← List.map_append, List.cons_append]
    · rw [List.map_cons, Extent.chain_cons]

/-- A chain of expressions. -/
theorem extent_chain : ∀ rs : List Re, (chain rs).extent = Extent.chain (rs.map extent)
  | [] => rfl
  | [r] => (Extent.chain_singleton r.extent).symm
  | r :: r' :: rest => by
    simp only [chain, extent, extent_chain (r' :: rest), List.map_cons, Extent.chain_cons]

/-- **A sequence means its parts one behind the other.** -/
theorem extent_sequence (rs : List Re) : (sequence rs).extent = Extent.chain (rs.map extent) := by
  rw [sequence, extent_chain, chain_joinLiterals, List.flatMap, List.map_flatten,
    Extent.chain_flatten, List.map_map, List.map_map]
  congr 1
  exact List.map_congr_left fun r _ => chain_parts r

/-! ## 4. Alternatives -/

/-- The alternatives of an expression are the expression. -/
theorem anyOf_branches : ∀ r : Re, Extent.anyOf (r.branches.map extent) = r.extent
  | .alt a b => by
    rw [branches, List.map_cons, Extent.anyOf_cons, anyOf_branches b, extent]
  | .empty => Extent.anyOf_singleton _
  | .literal _ _ => Extent.anyOf_singleton _
  | .set _ => Extent.anyOf_singleton _
  | .assertion _ => Extent.anyOf_singleton _
  | .group _ _ => Extent.anyOf_singleton _
  | .seq _ _ => Extent.anyOf_singleton _
  | .repeated _ _ _ _ => Extent.anyOf_singleton _

/-- Alternatives put together, of which there is at least one. -/
theorem extent_alternatives :
    ∀ rs : List Re, rs ≠ [] → (alternatives rs).extent = Extent.anyOf (rs.map extent)
  | [], h => absurd rfl h
  | [r], _ => (Extent.anyOf_singleton r.extent).symm
  | r :: r' :: rest, _ => by
    simp only [alternatives, extent, extent_alternatives (r' :: rest) (List.cons_ne_nil _ _),
      List.map_cons, Extent.anyOf_cons]

/-- A class means one of its characters, also where it has a single one. -/
theorem extent_ofClass (s : CharClass) : (ofClass s).extent = Extent.one s.has := by
  unfold ofClass
  split
  · rename_i c hc
    rw [CharClass.eq_single_of_char? hc, CharClass.has_single]
    exact Extent.chain_singleton _
  · rfl

/-- A set means one of its characters. -/
theorem extent_ofSet (s : CharSet) : (ofSet s).extent = Extent.one s.has := by
  rw [ofSet, extent_ofClass, CharSet.has_toClass]

/-- The only expression that stands for a character is its literal. -/
theorem eq_literal_of_char? {r : Re} {c : Char} (h : r.char? = some c) : r = .literal c [] := by
  unfold char? at h
  split at h
  · rw [Option.some.inj h]
  · cases h

/-- The only expression that stands for a class is that class. -/
theorem eq_set_of_class? {r : Re} {s : CharClass} (h : r.class? = some s) : r = .set s := by
  unfold class? at h
  split at h
  · rw [Option.some.inj h]
  · cases h

/-- Expressions that all stand for something, found by a partial reader, are its sources. -/
theorem eq_map_of_mapM {α : Type} {read : Re → Option α} {write : α → Re}
    (h : ∀ {r a}, read r = some a → r = write a) :
    ∀ {rs : List Re} {as : List α}, rs.mapM read = some as → rs = as.map write
  | [], as, hread => by
    cases hread
    rfl
  | r :: rs, as, hread => by
    rw [List.mapM_cons] at hread
    obtain ⟨a, ha, hread⟩ := Option.bind_eq_some_iff.mp hread
    obtain ⟨as', has, hread⟩ := Option.bind_eq_some_iff.mp hread
    cases hread
    rw [List.map_cons, h ha, eq_map_of_mapM h has]

/-- **Alternatives that are merged into a class** mean that class. -/
theorem extent_joinedClass? {rs : List Re} {s : CharClass} (h : joinedClass? rs = some s) :
    (ofClass s).extent = Extent.anyOf (rs.map extent) := by
  rw [extent_ofClass]
  unfold joinedClass? at h
  split at h
  · rename_i cs hcs
    rw [← Option.some.inj h, eq_map_of_mapM eq_literal_of_char? hcs]
    funext a b
    simp only [extent, Extent.one, Extent.anyOf, CharClass.has_ofList, List.map_map, List.mem_map,
      Function.comp_apply, List.map_cons, List.map_nil, eq_iff_iff]
    constructor
    · rintro ⟨c, hc, htake⟩
      exact ⟨_, ⟨c, hc, rfl⟩, by simpa [Extent.chain_singleton, Extent.one] using htake⟩
    · rintro ⟨_, ⟨c, hc, rfl⟩, htake⟩
      exact ⟨c, hc, by simpa [Extent.chain_singleton, Extent.one] using htake⟩
  · obtain ⟨classes, hclasses, rfl⟩ := Option.map_eq_some_iff.mp h
    rw [eq_map_of_mapM eq_set_of_class? hclasses]
    funext a b
    simp only [extent, Extent.one, Extent.anyOf, CharClass.has_unions, List.map_map, List.mem_map,
      Function.comp_apply, eq_iff_iff]
    constructor
    · rintro ⟨c, ⟨s, hs, hc⟩, htake⟩
      exact ⟨_, ⟨s, hs, rfl⟩, c, hc, htake⟩
    · rintro ⟨_, ⟨s, hs, rfl⟩, c, hc, htake⟩
      exact ⟨c, ⟨s, hs, hc⟩, htake⟩

/-- Alternatives without regard to what they begin with. -/
theorem extent_plainChoice (rs : List Re) :
    (plainChoice rs).extent = Extent.anyOf (rs.map extent) := by
  have hflat : Extent.anyOf ((rs.flatMap branches).map extent) = Extent.anyOf (rs.map extent) := by
    rw [List.flatMap, List.map_flatten, Extent.anyOf_flatten, List.map_map, List.map_map]
    congr 1
    exact List.map_congr_left fun r _ => anyOf_branches r
  rw [← hflat, plainChoice]
  split
  · rename_i r heq
    rw [heq]
    exact (Extent.anyOf_singleton _).symm
  · split
    · rename_i s hs
      exact extent_joinedClass? hs
    · rename_i hnone
      refine extent_alternatives _ fun hnil => ?_
      rw [hnil] at hnone
      cases hnone

/-! ## 5. Common beginnings -/

/-- What two sequences share is a beginning of both. -/
theorem sharedParts_begins :
    ∀ as bs : List Re, sharedParts as bs <+: as ∧ sharedParts as bs <+: bs
  | [], bs => ⟨ List.nil_prefix, List.nil_prefix⟩
  | a :: as, [] => ⟨ List.nil_prefix, List.nil_prefix⟩
  | a :: as, b :: bs => by
    unfold sharedParts
    split
    · rename_i heq
      obtain ⟨h1, h2⟩ := sharedParts_begins as bs
      rw [← eq_of_beq heq]
      exact ⟨(List.prefix_cons_inj a).mpr h1, (List.prefix_cons_inj a).mpr h2⟩
    · exact ⟨ List.nil_prefix, List.nil_prefix⟩

/-- What several sequences share with one is a beginning of it and of all of them. -/
theorem foldl_sharedParts_begins :
    ∀ (rest : List (List Re)) (first : List Re),
      rest.foldl sharedParts first <+: first ∧
        ∀ l ∈ rest, rest.foldl sharedParts first <+: l
  | [], first => ⟨ List.prefix_refl _, fun l hl => absurd hl List.not_mem_nil⟩
  | l :: rest, first => by
    obtain ⟨hfirst, hrest⟩ := foldl_sharedParts_begins rest (sharedParts first l)
    obtain ⟨h1, h2⟩ := sharedParts_begins first l
    rw [List.foldl_cons]
    refine ⟨hfirst.trans h1, fun l' hl' => ?_⟩
    rcases List.mem_cons.mp hl' with rfl | hl'
    · exact hfirst.trans h2
    · exact hrest l' hl'

/-- What all sequences share is a beginning of each. -/
theorem sharedByAll_begins {sequences : List (List Re)} {l : List Re} (hl : l ∈ sequences) :
    sharedByAll sequences <+: l := by
  unfold sharedByAll
  split
  · cases hl
  · rename_i first rest
    split
    · obtain ⟨hfirst, hrest⟩ := foldl_sharedParts_begins rest first
      rcases List.mem_cons.mp hl with rfl | hl
      · exact hfirst
      · exact hrest l hl
    · exact List.nil_prefix

/-- A common beginning may be matched before the alternatives part. -/
theorem anyOf_of_shared {shared : List Re} {sequences : List (List Re)}
    (h : ∀ l ∈ sequences, shared <+: l) :
    Extent.chain ((shared ++
        [plainChoice (sequences.map fun l => sequence (l.drop shared.length))]).map extent) =
      Extent.anyOf (sequences.map fun l => Extent.chain (l.map extent)) := by
  rw [List.map_append, Extent.chain_append, List.map_singleton, Extent.chain_singleton,
    extent_plainChoice, List.map_map, Extent.comp_anyOf, List.map_map]
  congr 1
  refine List.map_congr_left fun l hl => ?_
  obtain ⟨tail, rfl⟩ := h l hl
  simp only [Function.comp_apply, List.drop_left, extent_sequence, List.map_append,
    Extent.chain_append]

/-- **A choice means its alternatives**, also when their common beginning is put in front. -/
theorem extent_choice (rs : List Re) : (choice rs).extent = Extent.anyOf (rs.map extent) := by
  rw [← extent_plainChoice rs, choice]
  split
  · rename_i a b heq
    rw [heq]
    simp only
    split
    · rfl
    · rw [extent_sequence, anyOf_of_shared fun l hl => sharedByAll_begins hl, List.map_map,
        ← anyOf_branches (.alt a b)]
      congr 1
      exact List.map_congr_left fun r _ => chain_parts r
  · rfl

/-! ## 6. Repetitions -/

/-- A repetition that is kept as it is, dropped, or a single round. -/
theorem extent_kept_repetition (least : Nat) (most : Option Nat) (greedy : Bool) (r : Re)
    (hle : ∀ m ∈ most, least ≤ m) :
    (if most == some 0 then Re.empty
      else if least == 1 && most == some 1 then r
      else .repeated least most greedy r).extent = Extent.repeated least most r.extent := by
  split
  · rename_i hzero
    have hmost : most = some 0 := eq_of_beq hzero
    subst hmost
    have hleast : least = 0 := Nat.le_zero.mp (hle 0 rfl)
    subst hleast
    funext s t
    refine propext ⟨fun h => ⟨0, Nat.le_refl 0, by simp, h⟩, ?_⟩
    rintro ⟨n, -, hn, h⟩
    have hn0 : n = 0 := Nat.le_zero.mp (hn 0 rfl)
    subst hn0
    exact h
  · split
    · rename_i hone
      obtain ⟨hleast, hmost⟩ := (Bool.and_eq_true _ _).mp hone
      have hleast : least = 1 := eq_of_beq hleast
      have hmost : most = some 1 := eq_of_beq hmost
      subst hleast hmost
      funext s t
      refine propext ⟨fun h => ⟨1, Nat.le_refl 1, by simp, by rwa [Extent.rounds_one]⟩, ?_⟩
      rintro ⟨n, hle, hn, h⟩
      have hn1 : n = 1 := Nat.le_antisymm (hn 1 rfl) hle
      subst hn1
      rwa [Extent.rounds_one] at h
    · rfl

/-- Cutting the bounds of a repetition down to one round keeps the ceiling above the floor. -/
theorem min_getD_le {least : Nat} {most : Option Nat} (hle : ∀ m ∈ most, least ≤ m) :
    ∀ m ∈ some (min (most.getD 1) 1), min least 1 ≤ m := by
  intro m hm
  obtain rfl := Option.some.inj hm
  cases most with
  | none => exact Nat.min_le_right _ _
  | some m =>
    have hm : least ≤ m := hle m rfl
    rw [Option.getD_some]
    omega

/-- **A repetition means its rounds**, also when rounds of what takes nothing are dropped. -/
theorem extent_repetition (least : Nat) (most : Option Nat) (greedy : Bool) (r : Re)
    (hle : ∀ m ∈ most, least ≤ m) :
    (repetition least most greedy r).extent = Extent.repeated least most r.extent := by
  unfold repetition
  cases hidle : r.takesNothing with
  | false => exact extent_kept_repetition least most greedy r hle
  | true =>
    rw [← Extent.repeated_of_idle (fun _ _ => eq_of_takesNothing hidle) hle]
    exact extent_kept_repetition _ _ greedy r (min_getD_le hle)

end Re

end Shortlist.Pattern
