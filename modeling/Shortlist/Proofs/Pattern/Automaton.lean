import Mathlib.Data.List.Basic
import Shortlist.Pattern.Program
import Shortlist.Proofs.Pattern.Proper

/-!
# Programs do what their expressions mean

A program is a list of nodes, and a run of it goes from node to node until it is done.  `Ends` says
where a run that begins at a node and a spot can end, with the number of its steps.

The nodes of an expression stand somewhere inside a larger program, so the statement that carries the
induction is about a *fragment*: `Realizes` says that a fragment, wherever it is placed, leads from
its first node to the node `next` exactly between the spots that the expression allows.  The second
half is stated for runs up to the END of the program, as a run cannot be seen to leave a fragment
until one knows where it goes; it also says that the fragment costs at least one step, which is what
the loops of repetitions are unrolled along.
-/

namespace Shortlist.Pattern

open Relation (Comp)

/-! ## 1. Runs -/

/-- What one step through a node leads to: the next node and the spot there. -/
def Node.Moves (s : Spot) : Node → Nat → Spot → Prop
  | .take set next, j, t => j = next ∧ Extent.one set.has s t
  | .check a next, j, t => j = next ∧ s = t ∧ a.holds s.place = true
  | .skip next, j, t => j = next ∧ s = t
  | .fork first second, j, t => (j = first ∨ j = second) ∧ s = t
  | .done, _, _ => False

namespace Program

variable {program : Program}

/-- A run that begins at a node and a spot can be done after so many steps, at another spot. -/
inductive Ends (program : Program) : Nat → Nat → Spot → Spot → Prop where
  | done {i s} (hnode : program[i]? = some .done) : Ends program 0 i s s
  | step {n i j s t u node} (hnode : program[i]? = some node) (hmove : node.Moves s j t)
      (hrest : Ends program n j t u) : Ends program (n + 1) i s u

/-- A run from a node and a spot can be done at another spot. -/
def Accepts (program : Program) (i : Nat) (s u : Spot) : Prop := ∃ n, program.Ends n i s u

/-- The first step of a run from a node that is not the end. -/
theorem Ends.first {n i : Nat} {s u : Spot} {node : Node} (h : program.Ends n i s u)
    (hnode : program[i]? = some node) (hne : node ≠ .done) :
    ∃ m j t, n = m + 1 ∧ node.Moves s j t ∧ program.Ends m j t u := by
  cases h with
  | done hdone => exact absurd (Option.some.inj (hnode.symm.trans hdone)) hne
  | step hnode' hmove hrest =>
    rw [Option.some.inj (hnode.symm.trans hnode')]
    exact ⟨_, _, _, rfl, hmove, hrest⟩

/-- One step in front of a run. -/
theorem Accepts.step {i j : Nat} {s t u : Spot} {node : Node} (hnode : program[i]? = some node)
    (hmove : node.Moves s j t) (h : program.Accepts j t u) : program.Accepts i s u := by
  obtain ⟨n, h⟩ := h
  exact ⟨n + 1, .step hnode hmove h⟩

/-- A fork may go either way. -/
theorem Accepts.choose {i round past : Nat} {greedy : Bool} {s u : Spot}
    (hnode : program[i]? = some (Node.choose greedy round past))
    (h : program.Accepts round s u ∨ program.Accepts past s u) : program.Accepts i s u := by
  cases greedy with
  | true =>
    rcases h with h | h
    · exact h.step hnode ⟨Or.inl rfl, rfl⟩
    · exact h.step hnode ⟨Or.inr rfl, rfl⟩
  | false =>
    rcases h with h | h
    · exact h.step hnode ⟨Or.inr rfl, rfl⟩
    · exact h.step hnode ⟨Or.inl rfl, rfl⟩

/-- A run from a fork went either way. -/
theorem Ends.choose {n i round past : Nat} {greedy : Bool} {s u : Spot}
    (h : program.Ends n i s u) (hnode : program[i]? = some (Node.choose greedy round past)) :
    ∃ m, n = m + 1 ∧ (program.Ends m round s u ∨ program.Ends m past s u) := by
  cases greedy with
  | true =>
    obtain ⟨m, j, t, rfl, ⟨hj, rfl⟩, h⟩ := h.first hnode (by simp [Node.choose])
    rcases hj with rfl | rfl
    · exact ⟨m, rfl, Or.inl h⟩
    · exact ⟨m, rfl, Or.inr h⟩
  | false =>
    obtain ⟨m, j, t, rfl, ⟨hj, rfl⟩, h⟩ := h.first hnode (by simp [Node.choose])
    rcases hj with rfl | rfl
    · exact ⟨m, rfl, Or.inr h⟩
    · exact ⟨m, rfl, Or.inl h⟩

/-! ## 2. Fragments -/

/-- The nodes stand in the program from a place on. -/
def Holds (program : Program) (start : Nat) (nodes : List Node) : Prop :=
  ∀ i, i < nodes.length → program[start + i]? = nodes[i]?

namespace Holds

variable {start : Nat} {node : Node} {a b nodes : List Node}

theorem head (h : program.Holds start (node :: nodes)) : program[start]? = some node := by
  simpa using h 0 (by simp)

theorem tail (h : program.Holds start (node :: nodes)) : program.Holds (start + 1) nodes := by
  intro i hi
  have hnode := h (i + 1) (by simpa using hi)
  simpa [Nat.add_assoc, Nat.add_comm 1 i] using hnode

theorem left (h : program.Holds start (a ++ b)) : program.Holds start a := by
  intro i hi
  rw [h i (by rw [List.length_append]; omega), List.getElem?_append_left hi]

theorem right (h : program.Holds start (a ++ b)) : program.Holds (start + a.length) b := by
  intro i hi
  have hnode := h (a.length + i) (by rw [List.length_append]; omega)
  rw [List.getElem?_append_right (by omega)] at hnode
  simpa [Nat.add_assoc] using hnode

end Holds

end Program

/-- **A fragment realizes an extent.**  Wherever its nodes are placed, there are `count` of them, they
lead from the first one to `next` along the extent, and every run through them does so, in at least
one step. -/
structure Realizes (fragment : (start next : Nat) → List Node) (count : Nat) (e : Extent) :
    Prop where
  length : ∀ start next, (fragment start next).length = count
  complete : ∀ {program : Program} {start next s t u}, program.Holds start (fragment start next) →
    e s t → program.Accepts next t u → program.Accepts start s u
  sound : ∀ {program : Program} {start next n s u}, program.Holds start (fragment start next) →
    program.Ends n start s u → ∃ m t, m < n ∧ e s t ∧ program.Ends m next t u

namespace Realizes

variable {round : (start next : Nat) → List Node} {count : Nat} {e : Extent}

/-- A fragment of one node that leads to `next`. -/
theorem of_node {node : Nat → Node} (hne : ∀ next, node next ≠ .done)
    (h : ∀ {next j s t}, (node next).Moves s j t ↔ j = next ∧ e s t) :
    Realizes (fun _ next => [node next]) 1 e where
  length _ _ := rfl
  complete hholds hst hnext := hnext.step hholds.head (h.mpr ⟨rfl, hst⟩)
  sound hholds hends := by
    obtain ⟨m, j, t, rfl, hmove, hrest⟩ := hends.first hholds.head (hne _)
    obtain ⟨rfl, hst⟩ := h.mp hmove
    exact ⟨m, t, Nat.lt_succ_self m, hst, hrest⟩

/-- Two fragments one behind the other. -/
theorem comp {first second : (start next : Nat) → List Node} {c d : Nat} {f : Extent}
    (he : Realizes first c e) (hf : Realizes second d f) :
    Realizes (fun start next => first start (start + c) ++ second (start + c) next) (c + d)
      (Comp e f) where
  length _ _ := by rw [List.length_append, he.length, hf.length]
  complete hholds hst hnext := by
    obtain ⟨v, hsv, hvt⟩ := hst
    have hright := hholds.right
    rw [he.length] at hright
    exact he.complete hholds.left hsv (hf.complete hright hvt hnext)
  sound hholds hends := by
    have hright := hholds.right
    rw [he.length] at hright
    obtain ⟨m, v, hm, hsv, hends⟩ := he.sound hholds.left hends
    obtain ⟨k, t, hk, hvt, hends⟩ := hf.sound hright hends
    exact ⟨k, t, by omega, ⟨v, hsv, hvt⟩, hends⟩

/-! ## 3. Rounds -/

/-- One more fixed round in front. -/
theorem fixedRounds_succ (round : (start next : Nat) → List Node) (count start least : Nat) :
    fixedRounds round count start (least + 1) =
      round start (start + count) ++ fixedRounds round count (start + count) least := by
  simp only [fixedRounds, List.range_succ_eq_map, List.flatMap_cons, List.flatMap_map, Nat.zero_mul,
    Nat.add_zero, Nat.zero_add, Nat.one_mul]
  congr 1
  refine List.flatMap_congr fun i _ => ?_
  congr 1 <;> simp only [Nat.succ_mul, Nat.succ_eq_add_one] <;> omega

/-- The number of nodes of fixed rounds. -/
theorem length_fixedRounds (h : Realizes round count e) :
    ∀ least start, (fixedRounds round count start least).length = least * count
  | 0, _ => (Nat.zero_mul count).symm
  | least + 1, start => by
    rw [fixedRounds_succ, List.length_append, h.length, h.length_fixedRounds least, Nat.succ_mul,
      Nat.add_comm]

/-- Fixed rounds lead along as many rounds of the extent. -/
theorem complete_fixedRounds (h : Realizes round count e) {program : Program} {t u : Spot} :
    ∀ {least start s}, program.Holds start (fixedRounds round count start least) →
      Extent.rounds e least s t → program.Accepts (start + least * count) t u →
      program.Accepts start s u
  | 0, start, s, _, hst, hnext => by
    rw [Nat.zero_mul, Nat.add_zero] at hnext
    exact (show s = t from hst) ▸ hnext
  | least + 1, start, s, hholds, ⟨v, hsv, hvt⟩, hnext => by
    rw [fixedRounds_succ] at hholds
    have hright := hholds.right
    rw [h.length] at hright
    refine h.complete hholds.left hsv (h.complete_fixedRounds hright hvt ?_)
    rwa [Nat.add_assoc, ← Nat.add_comm (least * count), ← Nat.succ_mul]

/-- A run through fixed rounds takes as many rounds of the extent. -/
theorem sound_fixedRounds (h : Realizes round count e) {program : Program} {u : Spot} :
    ∀ {least start n s}, program.Holds start (fixedRounds round count start least) →
      program.Ends n start s u →
      ∃ m t, m ≤ n ∧ Extent.rounds e least s t ∧ program.Ends m (start + least * count) t u
  | 0, start, n, s, _, hends => by
    refine ⟨n, s, Nat.le_refl n, rfl, ?_⟩
    rwa [Nat.zero_mul, Nat.add_zero]
  | least + 1, start, n, s, hholds, hends => by
    rw [fixedRounds_succ] at hholds
    have hright := hholds.right
    rw [h.length] at hright
    obtain ⟨m, v, hm, hsv, hends⟩ := h.sound hholds.left hends
    obtain ⟨k, t, hk, hvt, hends⟩ := h.sound_fixedRounds hright hends
    refine ⟨k, t, by omega, ⟨v, hsv, hvt⟩, ?_⟩
    rwa [Nat.succ_mul, Nat.add_comm (least * count), ← Nat.add_assoc]

/-- Fixed rounds in front of a fragment. -/
theorem fixed_comp {rest : (start next : Nat) → List Node} {d : Nat} {f : Extent}
    (h : Realizes round count e) (hf : Realizes rest d f) (least : Nat) :
    Realizes
      (fun start next =>
        fixedRounds round count start least ++ rest (start + least * count) next)
      (least * count + d) (Comp (Extent.rounds e least) f) where
  length _ _ := by rw [List.length_append, h.length_fixedRounds, hf.length]
  complete hholds hst hnext := by
    obtain ⟨v, hsv, hvt⟩ := hst
    have hright := hholds.right
    rw [h.length_fixedRounds] at hright
    exact h.complete_fixedRounds hholds.left hsv (hf.complete hright hvt hnext)
  sound hholds hends := by
    have hright := hholds.right
    rw [h.length_fixedRounds] at hright
    obtain ⟨m, v, hm, hsv, hends⟩ := h.sound_fixedRounds hholds.left hends
    obtain ⟨k, t, hk, hvt, hends⟩ := hf.sound hright hends
    exact ⟨k, t, by omega, ⟨v, hsv, hvt⟩, hends⟩

/-- A fragment behind a fork that may lead past it. -/
theorem optional (h : Realizes round count e) (greedy : Bool) :
    Realizes (fun start next => Node.choose greedy (start + 1) next :: round (start + 1) next)
      (count + 1) (fun s t => s = t ∨ e s t) where
  length _ _ := by rw [List.length_cons, h.length]
  complete hholds hst hnext := by
    refine Program.Accepts.choose hholds.head ?_
    rcases hst with rfl | hst
    · exact Or.inr hnext
    · exact Or.inl (h.complete hholds.tail hst hnext)
  sound hholds hends := by
    obtain ⟨m, rfl, hends | hends⟩ := hends.choose hholds.head
    · obtain ⟨k, t, hk, hst, hends⟩ := h.sound hholds.tail hends
      exact ⟨k, t, by omega, Or.inr hst, hends⟩
    · exact ⟨m, _, Nat.lt_succ_self m, Or.inl rfl, hends⟩

/-- One more optional round in front. -/
theorem optionalRounds_succ (round : (start next : Nat) → List Node) (count : Nat) (greedy : Bool)
    (start next extra : Nat) :
    optionalRounds round count greedy start next (extra + 1) =
      Node.choose greedy (start + 1) next ::
        (round (start + 1) (if extra = 0 then next else start + 1 + count) ++
          optionalRounds round count greedy (start + 1 + count) next extra) := by
  simp only [optionalRounds, List.range_succ_eq_map, List.flatMap_cons, List.flatMap_map,
    Nat.zero_mul, Nat.add_zero, Nat.zero_add, List.cons_append, Nat.add_comm count 1,
    ← Nat.add_assoc]
  congr 2
  · congr 1
    by_cases hextra : extra = 0
    · simp [hextra]
    · simp [hextra]
  · refine List.flatMap_congr fun i _ => ?_
    have hhere : start + i.succ * (1 + count) = start + 1 + count + i * (1 + count) := by
      rw [Nat.succ_mul]
      omega
    simp only [hhere, Nat.succ_eq_add_one, Nat.add_right_cancel_iff, beq_iff_eq]

/-- **Optional rounds**, of which there is at least one. -/
theorem optionals (h : Realizes round count e) (greedy : Bool) :
    ∀ extra, Realizes
      (fun start next => optionalRounds round count greedy start next (extra + 1))
      ((extra + 1) * (count + 1)) (Extent.repeated 0 (some (extra + 1)) e)
  | 0 => by
    have hone := h.optional greedy
    simp only [optionalRounds_succ, if_true, Nat.zero_add, Nat.one_mul]
    have hnil : ∀ start next, optionalRounds round count greedy start next 0 = [] := fun _ _ => rfl
    simp only [hnil, List.append_nil]
    rw [Extent.repeated_zero_succ, Extent.repeated_self, Extent.rounds, Relation.comp_eq]
    exact hone
  | extra + 1 => by
    have hmore := (h.comp (h.optionals greedy extra)).optional greedy
    rw [Extent.repeated_zero_succ]
    have hcount : (extra + 1 + 1) * (count + 1) = count + (extra + 1) * (count + 1) + 1 := by
      rw [Nat.succ_mul (extra + 1)]
      omega
    rw [hcount]
    simpa only [optionalRounds_succ _ _ _ _ _ (extra + 1), Nat.add_one_ne_zero, if_false] using hmore

/-- **Endless rounds**, of which there is at least one. -/
theorem endless (h : Realizes round count e) (greedy : Bool) :
    Realizes (endlessRounds round count greedy) (count + 1) (Extent.repeated 1 none e) where
  length _ _ := by rw [endlessRounds, List.length_append, h.length, List.length_singleton]
  complete {program start next s t u} hholds hst hnext := by
    have hfork := hholds.right.head
    rw [h.length] at hfork
    obtain ⟨n, hn, -, hst⟩ := hst
    obtain ⟨k, rfl⟩ := Nat.exists_eq_add_of_le' hn
    clear hn
    -- by the number of rounds: behind the last one the fork leads out, behind any other one back
    induction k generalizing s with
    | zero =>
      obtain ⟨v, hsv, rfl⟩ := hst
      exact h.complete hholds.left hsv (Program.Accepts.choose hfork (Or.inr hnext))
    | succ k ih =>
      obtain ⟨v, hsv, hvt⟩ := hst
      exact h.complete hholds.left hsv (Program.Accepts.choose hfork (Or.inl (ih hvt)))
  sound {program start next n s u} hholds hends := by
    have hfork := hholds.right.head
    rw [h.length] at hfork
    induction n using Nat.strongRecOn generalizing s with
    | ind n ih =>
      obtain ⟨m, v, hm, hsv, hends⟩ := h.sound hholds.left hends
      obtain ⟨k, rfl, hends | hends⟩ := hends.choose hfork
      · obtain ⟨j, t, hj, ⟨r, hr, -, hvt⟩, hends⟩ := ih k (by omega) hends
        exact ⟨j, t, by omega, ⟨r + 1, by omega, by simp, v, hsv, hvt⟩, hends⟩
      · exact ⟨k, v, by omega, ⟨1, Nat.le_refl 1, by simp, v, hsv, rfl⟩, hends⟩

/-- **A loop with one fork**, in front of the round. -/
theorem loop (h : Realizes round count e) (greedy : Bool) :
    Realizes (fun start next => Node.choose greedy (start + 1) next :: round (start + 1) start)
      (count + 1) (Extent.repeated 0 none e) where
  length _ _ := by rw [List.length_cons, h.length]
  complete {program start next s t u} hholds hst hnext := by
    obtain ⟨n, -, -, hst⟩ := hst
    induction n generalizing s with
    | zero => exact Program.Accepts.choose hholds.head (Or.inr ((show s = t from hst) ▸ hnext))
    | succ n ih =>
      obtain ⟨v, hsv, hvt⟩ := hst
      exact Program.Accepts.choose hholds.head
        (Or.inl (h.complete hholds.tail hsv (ih hvt)))
  sound {program start next n s u} hholds hends := by
    induction n using Nat.strongRecOn generalizing s with
    | ind n ih =>
      obtain ⟨m, rfl, hends | hends⟩ := hends.choose hholds.head
      · obtain ⟨k, v, hk, hsv, hends⟩ := h.sound hholds.tail hends
        obtain ⟨j, t, hj, ⟨r, -, -, hvt⟩, hends⟩ := ih k (by omega) hends
        exact ⟨j, t, by omega, ⟨r + 1, Nat.zero_le _, by simp, v, hsv, hvt⟩, hends⟩
      · exact ⟨m, s, Nat.lt_succ_self m, ⟨0, Nat.le_refl 0, by simp, rfl⟩, hends⟩

/-! ## 4. Repetitions and expressions -/

/-- **A repetition that is written out realizes its rounds.** -/
theorem repeatedNodes (h : Realizes round count e) (takes greedy : Bool) (least : Nat)
    (most : Option Nat) (hle : ∀ m ∈ most, least ≤ m) :
    Realizes (Pattern.repeatedNodes round takes count least most greedy)
      (roundsCount takes count least most) (Extent.repeated least most e) := by
  unfold Pattern.repeatedNodes roundsCount
  cases most with
  | none =>
    cases least with
    | zero =>
      cases takes with
      | true => exact h.loop greedy
      | false =>
        rw [Extent.repeated_zero_none]
        exact (h.endless greedy).optional greedy
    | succ least =>
      have hcount : (least + 1) * count + 1 = least * count + (count + 1) := by
        rw [Nat.succ_mul, Nat.add_assoc]
      have hrounds := h.fixed_comp (h.endless greedy) least
      rw [Extent.comp_rounds_repeated, Option.map_none, ← hcount] at hrounds
      exact hrounds
  | some most =>
    have hleast : least ≤ most := hle most rfl
    cases most with
    | zero =>
      obtain rfl := Nat.le_zero.mp hleast
      rw [Extent.repeated_self]
      exact of_node (fun next => by simp) Iff.rfl
    | succ most =>
      by_cases heq : most + 1 = least
      · subst heq
        have hrounds := h.fixed_comp h most
        have hlast : Comp (Extent.rounds e most) e = Extent.rounds e (most + 1) := by
          rw [Extent.rounds_add, Extent.rounds_one]
        rw [← Nat.succ_mul, hlast] at hrounds
        rw [Extent.repeated_self]
        simpa using hrounds
      · obtain ⟨extra, hextra⟩ : ∃ extra, most + 1 - least = extra + 1 :=
          ⟨most - least, by omega⟩
        have hmost : least + (extra + 1) = most + 1 := by omega
        have hrounds := h.fixed_comp (h.optionals greedy extra) least
        rw [Extent.comp_rounds_repeated, Option.map_some, Nat.add_zero, hmost, Nat.mul_succ,
          ← Nat.add_assoc, ← Nat.add_mul, hmost] at hrounds
        simpa [heq, hextra] using hrounds

/-- The nodes of a literal take its characters. -/
theorem literalNodes :
    ∀ (c : Char) (cs : List Char), Realizes (fun start next => Pattern.literalNodes start next c cs)
      (cs.length + 1) (Re.literal c cs).extent
  | c, [] => by
    rw [Re.extent, List.map_singleton, Extent.chain_singleton]
    exact of_node (fun next => by simp) (by simp [Node.Moves, Extent.one, CharClass.has_single])
  | c, d :: ds => by
    have hfirst : Realizes (fun _ next => [Node.take (CharClass.single c) next]) 1
        (Extent.one (· == c)) :=
      of_node (fun next => by simp) (by simp [Node.Moves, Extent.one, CharClass.has_single])
    have hboth := hfirst.comp (literalNodes d ds)
    rw [Nat.add_comm] at hboth
    exact hboth

/-- **The nodes of an expression realize its extent.** -/
theorem nodes : ∀ {r : Re}, r.Proper → Realizes r.nodes r.nodeCount r.extent
  | .empty, _ => of_node (fun next => by simp) Iff.rfl
  | .literal c cs, _ => literalNodes c cs
  | .set s, _ => of_node (fun next => by simp) Iff.rfl
  | .assertion a, _ => of_node (fun next => by simp) Iff.rfl
  | .group _ r, h => nodes (r := r) h
  | .seq a b, h => (nodes h.1).comp (nodes h.2)
  | .repeated least most greedy r, h =>
    (nodes h.2).repeatedNodes r.takesSomething greedy least most h.1
  | .alt a b, h => by
    have ha := nodes h.1
    have hb := nodes h.2
    refine ⟨fun start next => ?_, fun {program start next s t u} hholds hst hnext => ?_,
      fun {program start next n s u} hholds hends => ?_⟩
    · rw [Re.nodes, List.length_cons, List.length_append, ha.length, hb.length, Re.nodeCount]
      omega
    · have hright := hholds.tail.right
      rw [ha.length] at hright
      rcases hst with hst | hst
      · exact (ha.complete hholds.tail.left hst hnext).step hholds.head ⟨Or.inl rfl, rfl⟩
      · exact (hb.complete hright hst hnext).step hholds.head ⟨Or.inr rfl, rfl⟩
    · have hright := hholds.tail.right
      rw [ha.length] at hright
      obtain ⟨m, j, t, rfl, ⟨hj, rfl⟩, hends⟩ := hends.first hholds.head (by simp)
      rcases hj with rfl | rfl
      · obtain ⟨k, t, hk, hst, hends⟩ := ha.sound hholds.tail.left hends
        exact ⟨k, t, by omega, Or.inl hst, hends⟩
      · obtain ⟨k, t, hk, hst, hends⟩ := hb.sound hright hends
        exact ⟨k, t, by omega, Or.inr hst, hends⟩

end Realizes

/-- **The program of an expression accepts what the expression means.** -/
theorem Re.accepts_program {r : Re} (h : r.Proper) {s u : Spot} :
    r.program.Accepts 0 s u ↔ r.extent s u := by
  have hnodes := Realizes.nodes h
  have hholds : Program.Holds r.program 0 (r.nodes 0 r.nodeCount ++ [Node.done]) := by
    intro i _
    rw [Nat.zero_add, Re.program, List.getElem?_toArray]
  have hdone : r.program[r.nodeCount]? = some Node.done := by
    have hhead := hholds.right.head
    rwa [hnodes.length, Nat.zero_add] at hhead
  constructor
  · rintro ⟨n, hends⟩
    obtain ⟨m, t, -, hst, hends⟩ := hnodes.sound hholds.left hends
    cases hends with
    | done _ => exact hst
    | step hnode hmove _ =>
      rw [Option.some.inj (hnode.symm.trans hdone)] at hmove
      exact hmove.elim
  · intro hsu
    exact hnodes.complete hholds.left hsu ⟨0, .done hdone⟩

end Shortlist.Pattern
