import Mathlib.Logic.Relation
import Shortlist.Pattern.Table
import Shortlist.Proofs.Pattern.Automaton

/-!
# Searching finds what the expression means

`Program.explore` enters every node at most once, and `Program.run` follows all nodes side by side.
Both are optimizations of the plain question whether some run of the program is done, and this file
shows that they answer it: a table matches a text exactly when its expression matches between two
spots of the text.

The invariant of `explore` is that the nodes that were entered are CLOSED: whatever they lead to
without taking a character was entered as well or is still ahead.  Only when the exploration stops
because the program is done may the nodes ahead be left alone, and then it is known that there is a
match.
-/

namespace Shortlist.Pattern

open Relation (ReflTransGen)

/-! ## 1. Ways without a character -/

namespace Node

/-- The nodes that a node leads to at a place without taking a character. -/
def ways (p : Place) : Node → List Nat
  | .check a next => if a.holds p then [next] else []
  | .skip next => [next]
  | .fork first second => [first, second]
  | _ => []

/-- What a node takes. -/
def taken : Node → List (CharClass × Nat)
  | .take s next => [(s, next)]
  | _ => []

/-- A node leads to at most two nodes. -/
theorem length_ways_le (p : Place) (node : Node) : (node.ways p).length ≤ 2 := by
  cases node with
  | check a next =>
    rw [ways]
    split <;> simp
  | _ => simp [ways]

/-- A node either goes a way without a character or takes one. -/
theorem moves_iff {node : Node} {s t : Spot} {j : Nat} :
    node.Moves s j t ↔
      (j ∈ node.ways s.place ∧ s = t) ∨ ∃ set, (set, j) ∈ node.taken ∧ Extent.one set.has s t := by
  cases node with
  | check a next =>
    cases ha : a.holds s.place with
    | true => simp [Moves, ways, taken, ha]
    | false => simp [Moves, ways, taken, ha]
  | take set next =>
    simp only [Moves, ways, taken, List.mem_singleton, Prod.mk.injEq, List.not_mem_nil, false_and,
      false_or]
    constructor
    · rintro ⟨rfl, h⟩
      exact ⟨set, ⟨rfl, rfl⟩, h⟩
    · rintro ⟨_, ⟨rfl, rfl⟩, h⟩
      exact ⟨rfl, h⟩
  | _ => simp [Moves, ways, taken]

end Node

namespace Program

variable {program : Program} {p : Place}

/-- One node leads to another at a place, without taking a character. -/
def Leads (program : Program) (p : Place) : Nat → Nat → Prop :=
  ReflTransGen fun i j => ∃ node, program[i]? = some node ∧ j ∈ node.ways p

/-- Some of these nodes lead to one of which something holds. -/
def Meets (program : Program) (p : Place) (nodes : List Nat) (what : Node → Prop) : Prop :=
  ∃ i ∈ nodes, ∃ j node, program.Leads p i j ∧ program[j]? = some node ∧ what node

/-- **A run goes without a character as far as it can**, and is done there or takes one. -/
theorem accepts_iff {i : Nat} {s u : Spot} :
    program.Accepts i s u ↔
      ∃ j node, program.Leads s.place i j ∧ program[j]? = some node ∧
        ((node = .done ∧ s = u) ∨
          ∃ set next t, (set, next) ∈ node.taken ∧ Extent.one set.has s t ∧
            program.Accepts next t u) := by
  constructor
  · rintro ⟨n, hends⟩
    induction hends with
    | done hnode => exact ⟨_, _, .refl, hnode, Or.inl ⟨rfl, rfl⟩⟩
    | @step n i j s t u node hnode hmove hrest ih =>
      rcases Node.moves_iff.mp hmove with ⟨hway, rfl⟩ | ⟨set, htake, hone⟩
      · obtain ⟨k, last, hleads, hlast, h⟩ := ih
        exact ⟨k, last, hleads.head ⟨node, hnode, hway⟩, hlast, h⟩
      · exact ⟨i, node, .refl, hnode, Or.inr ⟨set, j, t, htake, hone, n, hrest⟩⟩
  · rintro ⟨j, node, hleads, hnode, h⟩
    induction hleads using ReflTransGen.head_induction_on with
    | refl =>
      rcases h with ⟨rfl, rfl⟩ | ⟨set, next, t, htake, hone, hrest⟩
      · exact ⟨0, .done hnode⟩
      · exact hrest.step hnode (Node.moves_iff.mpr (Or.inr ⟨set, htake, hone⟩))
    | head hway _ ih =>
      obtain ⟨first, hfirst, hmem⟩ := hway
      exact ih.step hfirst (Node.moves_iff.mpr (Or.inl ⟨hmem, rfl⟩))

/-! ## 2. Exploring -/

/-- A node was entered, or there is no such node. -/
def Entered (seen : Array Bool) (i : Nat) : Prop := seen.getD i true = true

/-- Entering a node. -/
theorem entered_set {seen : Array Bool} {i j : Nat} (hi : i < seen.size) :
    Entered (seen.setIfInBounds i true) j ↔ j = i ∨ Entered seen j := by
  unfold Entered
  rw [Array.getD_eq_getD_getElem?, Array.getD_eq_getD_getElem?, Array.getElem?_setIfInBounds]
  by_cases h : i = j
  · subst h
    simp [hi]
  · simp [h, Ne.symm h]

/-- A node that was not entered is one of the nodes. -/
theorem lt_size_of_not_entered {seen : Array Bool} {i : Nat} (h : ¬ Entered seen i) :
    i < seen.size ∧ seen[i]? = some false := by
  unfold Entered at h
  rw [Array.getD_eq_getD_getElem?] at h
  cases hget : seen[i]? with
  | none => simp [hget] at h
  | some b =>
    obtain ⟨hi, -⟩ := Array.getElem?_eq_some_iff.mp hget
    cases b with
    | false => exact ⟨hi, rfl⟩
    | true => simp [hget] at h

/-- Entering a node leaves one less to be entered. -/
theorem count_enter {seen : Array Bool} {i : Nat} (h : ¬ Entered seen i) :
    (seen.setIfInBounds i true).count false + 1 = seen.count false := by
  obtain ⟨hi, hget⟩ := lt_size_of_not_entered h
  obtain ⟨_, hfalse⟩ := Array.getElem?_eq_some_iff.mp hget
  have hpos : 0 < seen.count false :=
    Array.count_pos_iff.mpr (hfalse ▸ Array.getElem_mem hi)
  have hset : seen.setIfInBounds i true = seen.set i true hi := by
    simp [Array.setIfInBounds, hi]
  rw [hset, Array.count_set hi, hfalse, if_pos (beq_self_eq_true false), if_neg (by decide)]
  omega

/-- Passing over a node that was entered before. -/
theorem explore_of_entered {seen : Array Bool} {i : Nat} (h : Entered seen i) (steps : Nat)
    (ahead : List Nat) (takes : List (CharClass × Nat)) :
    program.explore p (steps + 1) (i :: ahead) seen takes =
      program.explore p steps ahead seen takes := by
  rw [explore, if_pos (show seen.getD i true = true from h)]

/-- Entering a node that is not the end. -/
theorem explore_of_not_entered {seen : Array Bool} {i : Nat} {node : Node} (h : ¬ Entered seen i)
    (hnode : program[i]? = some node) (hne : node ≠ .done) (steps : Nat) (ahead : List Nat)
    (takes : List (CharClass × Nat)) :
    program.explore p (steps + 1) (i :: ahead) seen takes =
      program.explore p steps (node.ways p ++ ahead) (seen.setIfInBounds i true)
        (node.taken ++ takes) := by
  rw [explore, if_neg (show ¬ seen.getD i true = true from h)]
  simp only [hnode]
  cases node with
  | check a next =>
    cases ha : a.holds p with
    | true => simp [Node.ways, Node.taken, ha]
    | false => simp [Node.ways, Node.taken, ha]
  | done => exact absurd rfl hne
  | _ => rfl

/-- Entering the end. -/
theorem explore_of_done {seen : Array Bool} {i : Nat} (h : ¬ Entered seen i)
    (hnode : program[i]? = some .done) (steps : Nat) (ahead : List Nat)
    (takes : List (CharClass × Nat)) :
    program.explore p (steps + 1) (i :: ahead) seen takes = ⟨takes.reverse, true⟩ := by
  rw [explore, if_neg (show ¬ seen.getD i true = true from h)]
  simp only [hnode]

/-- What the nodes behind a node meet, the node meets. -/
theorem Meets.of_ways {i : Nat} {node : Node} {ahead : List Nat} {what : Node → Prop}
    (hnode : program[i]? = some node) (h : program.Meets p (node.ways p ++ ahead) what) :
    program.Meets p (i :: ahead) what := by
  obtain ⟨j, hj, k, last, hleads, hlast, hwhat⟩ := h
  rcases List.mem_append.mp hj with hj | hj
  · exact ⟨i, List.mem_cons_self, k, last, hleads.head ⟨node, hnode, hj⟩, hlast, hwhat⟩
  · exact ⟨j, List.mem_cons_of_mem i hj, k, last, hleads, hlast, hwhat⟩

/-- What some nodes meet, more of them meet. -/
theorem Meets.cons {nodes : List Nat} {what : Node → Prop} (h : program.Meets p nodes what) (i : Nat) :
    program.Meets p (i :: nodes) what := by
  obtain ⟨j, hj, hmeets⟩ := h
  exact ⟨j, List.mem_cons_of_mem i hj, hmeets⟩

/-- A node meets itself. -/
theorem Meets.here {i : Nat} {node : Node} {nodes : List Nat} {what : Node → Prop}
    (hnode : program[i]? = some node) (h : what node) : program.Meets p (i :: nodes) what :=
  ⟨i, List.mem_cons_self, i, node, .refl, hnode, h⟩

/-- **Nothing is made up**: what an exploration finds, the nodes ahead meet. -/
theorem explore_sound :
    ∀ (steps : Nat) (ahead : List Nat) (seen : Array Bool) (takes : List (CharClass × Nat)),
      (∀ x ∈ (program.explore p steps ahead seen takes).takes,
        x ∈ takes ∨ program.Meets p ahead (x ∈ ·.taken)) ∧
      ((program.explore p steps ahead seen takes).done = true →
        program.Meets p ahead (· = .done))
  | 0, ahead, seen, takes => by
    simp only [explore, List.mem_reverse, Bool.false_eq_true, false_implies, and_true]
    exact fun x hx => Or.inl hx
  | steps + 1, [], seen, takes => by
    simp only [explore, List.mem_reverse, Bool.false_eq_true, false_implies, and_true]
    exact fun x hx => Or.inl hx
  | steps + 1, i :: ahead, seen, takes => by
    by_cases hentered : Entered seen i
    · rw [explore_of_entered hentered]
      obtain ⟨htakes, hdone⟩ := explore_sound steps ahead seen takes
      exact ⟨fun x hx => (htakes x hx).imp_right fun h => h.cons i, fun h => (hdone h).cons i⟩
    · cases hnode : program[i]? with
      | none =>
        rw [explore, if_neg (show ¬ seen.getD i true = true from hentered)]
        simp only [hnode, List.mem_reverse, Bool.false_eq_true, false_implies, and_true]
        exact fun x hx => Or.inl hx
      | some node =>
        by_cases hlast : node = .done
        · subst hlast
          rw [explore_of_done hentered hnode]
          simp only [List.mem_reverse]
          exact ⟨fun x hx => Or.inl hx, fun _ => Meets.here hnode rfl⟩
        · rw [explore_of_not_entered hentered hnode hlast]
          obtain ⟨htakes, hdone⟩ := explore_sound steps (node.ways p ++ ahead)
            (seen.setIfInBounds i true) (node.taken ++ takes)
          refine ⟨fun x hx => ?_, fun h => (hdone h).of_ways hnode⟩
          rcases htakes x hx with hx | hx
          · rcases List.mem_append.mp hx with hx | hx
            · exact Or.inr (Meets.here hnode hx)
            · exact Or.inl hx
          · exact Or.inr (hx.of_ways hnode)

/-- The invariant of exploring: a node that was entered is not the end, what it takes was found, and
the nodes it leads to were entered or are ahead. -/
def Closed (program : Program) (p : Place) (seen : Array Bool) (takes : List (CharClass × Nat))
    (ahead : List Nat) : Prop :=
  ∀ i node, Entered seen i → program[i]? = some node →
    node ≠ .done ∧ (∀ x ∈ node.taken, x ∈ takes) ∧ ∀ j ∈ node.ways p, Entered seen j ∨ j ∈ ahead

/-- Passing over a node that was entered keeps the nodes closed. -/
theorem Closed.pass {seen : Array Bool} {takes : List (CharClass × Nat)} {i : Nat} {ahead : List Nat}
    (h : program.Closed p seen takes (i :: ahead)) (hentered : Entered seen i) :
    program.Closed p seen takes ahead := by
  intro j node hj hnode
  obtain ⟨hne, htaken, hways⟩ := h j node hj hnode
  refine ⟨hne, htaken, fun k hk => ?_⟩
  rcases hways k hk with hk | hk
  · exact Or.inl hk
  · rcases List.mem_cons.mp hk with rfl | hk
    · exact Or.inl hentered
    · exact Or.inr hk

/-- Entering a node keeps the nodes closed. -/
theorem Closed.enter {seen : Array Bool} {takes : List (CharClass × Nat)} {i : Nat} {ahead : List Nat}
    {node : Node} (h : program.Closed p seen takes (i :: ahead)) (hentered : ¬ Entered seen i)
    (hnode : program[i]? = some node) (hne : node ≠ .done) :
    program.Closed p (seen.setIfInBounds i true) (node.taken ++ takes) (node.ways p ++ ahead) := by
  have hi := (lt_size_of_not_entered hentered).1
  intro j other hj hother
  rcases (entered_set hi).mp hj with rfl | hj
  · -- the node itself: the nodes it leads to are ahead now
    rw [Option.some.inj (hother.symm.trans hnode)]
    exact ⟨hne, fun x hx => List.mem_append_left _ hx,
      fun k hk => Or.inr (List.mem_append_left _ hk)⟩
  · obtain ⟨hother, htaken, hways⟩ := h j other hj hother
    refine ⟨hother, fun x hx => List.mem_append_right _ (htaken x hx), fun k hk => ?_⟩
    rcases hways k hk with hk | hk
    · exact Or.inl ((entered_set hi).mpr (Or.inr hk))
    · rcases List.mem_cons.mp hk with rfl | hk
      · exact Or.inl ((entered_set hi).mpr (Or.inl rfl))
      · exact Or.inr (List.mem_append_right _ hk)

/-- **An exploration that does not find the end enters all it can**: it leaves closed nodes behind and
nothing ahead. -/
theorem explore_closed :
    ∀ {steps ahead seen takes}, seen.size = program.size →
      2 * seen.count false + ahead.length ≤ steps → program.Closed p seen takes ahead →
      (program.explore p steps ahead seen takes).done = false →
      ∃ seen', (∀ i, Entered seen i ∨ i ∈ ahead → Entered seen' i) ∧
        program.Closed p seen' (program.explore p steps ahead seen takes).takes []
  | 0, [], seen, takes, _, _, hclosed, _ => by
    refine ⟨seen, fun i hi => hi.resolve_right List.not_mem_nil, ?_⟩
    simpa only [explore, Closed, List.mem_reverse] using hclosed
  | 0, i :: ahead, _, _, _, hsteps, _, _ => absurd hsteps (by simp)
  | steps + 1, [], seen, takes, _, _, hclosed, _ => by
    refine ⟨seen, fun i hi => hi.resolve_right List.not_mem_nil, ?_⟩
    simpa only [explore, Closed, List.mem_reverse] using hclosed
  | steps + 1, i :: ahead, seen, takes, hsize, hsteps, hclosed, hdone => by
    rw [List.length_cons] at hsteps
    by_cases hentered : Entered seen i
    · rw [explore_of_entered hentered] at hdone ⊢
      obtain ⟨seen', hall, hclosed'⟩ :=
        explore_closed hsize (by omega) (hclosed.pass hentered) hdone
      refine ⟨seen', fun j hj => hall j ?_, hclosed'⟩
      rcases hj with hj | hj
      · exact Or.inl hj
      · rcases List.mem_cons.mp hj with rfl | hj
        · exact Or.inl hentered
        · exact Or.inr hj
    · obtain ⟨hi, -⟩ := lt_size_of_not_entered hentered
      obtain ⟨node, hnode⟩ : ∃ node, program[i]? = some node :=
        ⟨_, Array.getElem?_eq_getElem (hsize ▸ hi)⟩
      by_cases hlast : node = .done
      · subst hlast
        rw [explore_of_done hentered hnode] at hdone
        cases hdone
      · rw [explore_of_not_entered hentered hnode hlast] at hdone ⊢
        have hcount := count_enter hentered
        have hways := Node.length_ways_le p node
        obtain ⟨seen', hall, hclosed'⟩ :=
          explore_closed (by rw [Array.size_setIfInBounds, hsize])
            (by rw [List.length_append]; omega) (hclosed.enter hentered hnode hlast) hdone
        refine ⟨seen', fun j hj => hall j ?_, hclosed'⟩
        rcases hj with hj | hj
        · exact Or.inl ((entered_set hi).mpr (Or.inr hj))
        · rcases List.mem_cons.mp hj with rfl | hj
          · exact Or.inl ((entered_set hi).mpr (Or.inl rfl))
          · exact Or.inr (List.mem_append_right _ hj)

/-! ## 3. Reaching -/

/-- Closed nodes are never left: what they lead to was entered. -/
theorem Closed.entered {seen : Array Bool} {takes : List (CharClass × Nat)} {i j : Nat} {node : Node}
    (h : program.Closed p seen takes []) (hi : Entered seen i) (hleads : program.Leads p i j)
    (hnode : program[j]? = some node) : node ≠ .done ∧ ∀ x ∈ node.taken, x ∈ takes := by
  have hj : Entered seen j := by
    clear hnode
    induction hleads with
    | refl => exact hi
    | tail _ hstep ih =>
      obtain ⟨last, hlast, hway⟩ := hstep
      exact ((h _ last ih hlast).2.2 _ hway).resolve_right List.not_mem_nil
  obtain ⟨hne, htaken, -⟩ := h j node hj hnode
  exact ⟨hne, htaken⟩

/-- What is reached at a place, if the program cannot be done there, is closed. -/
theorem reach_closed {nodes : List Nat} (hdone : (program.reach p nodes).done = false) :
    ∃ seen, (∀ i ∈ nodes, Entered seen i) ∧
      program.Closed p seen (program.reach p nodes).takes [] := by
  have hnone : ∀ i, i < program.size → ¬ Entered (Array.replicate program.size false) i := by
    intro i hi h
    simp [Entered, hi] at h
  have hempty : program.Closed p (Array.replicate program.size false) [] nodes := by
    intro i node hi hnode
    obtain ⟨hlt, -⟩ := Array.getElem?_eq_some_iff.mp hnode
    exact absurd hi (hnone i hlt)
  have hsize : (Array.replicate program.size false).size = program.size := Array.size_replicate
  have hsteps : 2 * (Array.replicate program.size false).count false + nodes.length ≤
      2 * program.size + nodes.length :=
    Nat.le_of_eq (by rw [Array.count_replicate_self])
  obtain ⟨seen, hall, hclosed⟩ := explore_closed hsize hsteps hempty hdone
  exact ⟨seen, fun i hi => hall i (Or.inr hi), hclosed⟩

/-- The program can be done at a place exactly when some node leads to the end. -/
theorem reach_done {nodes : List Nat} :
    (program.reach p nodes).done = true ↔ program.Meets p nodes (· = .done) := by
  refine ⟨(explore_sound _ _ _ _).2, fun ⟨i, hi, j, node, hleads, hnode, hlast⟩ => ?_⟩
  by_contra hdone
  obtain ⟨seen, hall, hclosed⟩ := reach_closed (eq_false_of_ne_true hdone)
  exact (hclosed.entered (hall i hi) hleads hnode).1 hlast

/-- Where the program cannot be done, all that can be taken is listed. -/
theorem reach_takes {nodes : List Nat} (hdone : (program.reach p nodes).done = false)
    {x : CharClass × Nat} :
    x ∈ (program.reach p nodes).takes ↔ program.Meets p nodes (x ∈ ·.taken) := by
  refine ⟨fun h => ((explore_sound _ _ _ _).1 x h).resolve_left List.not_mem_nil,
    fun ⟨i, hi, j, node, hleads, hnode, htaken⟩ => ?_⟩
  obtain ⟨seen, hall, hclosed⟩ := reach_closed hdone
  exact (hclosed.entered (hall i hi) hleads hnode).2 x htaken

/-! ## 4. Running -/

/-- Some of these nodes begin a run from a spot that can be done. -/
def Succeeds (program : Program) (nodes : List Nat) (s : Spot) : Prop :=
  ∃ i ∈ nodes, ∃ u, program.Accepts i s u

/-- Where the program can be done, some node begins a run that is done there. -/
theorem accepts_of_done {nodes : List Nat} {s : Spot}
    (h : (program.reach s.place nodes).done = true) : ∃ i ∈ nodes, program.Accepts i s s := by
  obtain ⟨i, hi, j, node, hleads, hnode, hlast⟩ := reach_done.mp h
  exact ⟨i, hi, accepts_iff.mpr ⟨j, node, hleads, hnode, Or.inl ⟨hlast, rfl⟩⟩⟩

/-- A run from a node behind a character is the rest of one from in front of it. -/
theorem accepts_of_after {nodes : List Nat} {before : Option Char} {c : Char} {rest : List Char}
    {next : Nat} {u : Spot} (hnext : next ∈ (program.reach ⟨before, some c⟩ nodes).after c)
    (h : program.Accepts next ⟨some c, rest⟩ u) :
    ∃ i ∈ nodes, program.Accepts i ⟨before, c :: rest⟩ u := by
  obtain ⟨⟨set, j⟩, htake, hset⟩ := List.mem_filterMap.mp hnext
  obtain ⟨hhas, heq⟩ := Option.ite_none_right_eq_some.mp hset
  cases heq
  obtain ⟨i, hi, k, node, hleads, hnode, htaken⟩ :=
    ((explore_sound _ _ _ _).1 _ htake).resolve_left List.not_mem_nil
  exact ⟨i, hi, accepts_iff.mpr ⟨k, node, hleads, hnode,
    Or.inr ⟨set, next, _, htaken, ⟨c, hhas, rfl, rfl⟩, h⟩⟩⟩

/-- At the end of a text a run can only be done where it is. -/
theorem succeeds_nil {nodes : List Nat} {before : Option Char} :
    program.Succeeds nodes ⟨before, []⟩ ↔ (program.reach ⟨before, none⟩ nodes).done = true := by
  constructor
  · rintro ⟨i, hi, u, h⟩
    obtain ⟨j, node, hleads, hnode, ⟨hlast, -⟩ | ⟨_, _, _, _, ⟨c, -, hrest, -⟩, -⟩⟩ :=
      accepts_iff.mp h
    · exact reach_done.mpr ⟨i, hi, j, node, hleads, hnode, hlast⟩
    · cases hrest
  · intro hdone
    obtain ⟨i, hi, h⟩ := accepts_of_done (s := ⟨before, []⟩) hdone
    exact ⟨i, hi, _, h⟩

/-- In front of a character a run is done where it is, or takes the character and goes on. -/
theorem succeeds_cons {nodes : List Nat} {before : Option Char} {c : Char} {rest : List Char} :
    program.Succeeds nodes ⟨before, c :: rest⟩ ↔
      (program.reach ⟨before, some c⟩ nodes).done = true ∨
        program.Succeeds ((program.reach ⟨before, some c⟩ nodes).after c) ⟨some c, rest⟩ := by
  constructor
  · rintro ⟨i, hi, u, h⟩
    by_cases hdone : (program.reach ⟨before, some c⟩ nodes).done = true
    · exact Or.inl hdone
    · obtain ⟨j, node, hleads, hnode, ⟨hlast, -⟩ | ⟨set, next, t, htaken, ⟨d, hset, hrest, ht⟩, h⟩⟩ :=
        accepts_iff.mp h
      · exact absurd (reach_done.mpr ⟨i, hi, j, node, hleads, hnode, hlast⟩) hdone
      · obtain ⟨rfl, hrest⟩ := List.cons.inj hrest
        have htake := (reach_takes (eq_false_of_ne_true hdone)).mpr
          ⟨i, hi, j, node, hleads, hnode, htaken⟩
        have hspot : t = ⟨some c, rest⟩ := by
          cases t
          cases ht
          cases hrest
          rfl
        refine Or.inr ⟨next, List.mem_filterMap.mpr ⟨_, htake, if_pos hset⟩, u, ?_⟩
        rwa [← hspot]
  · rintro (hdone | ⟨next, hnext, u, h⟩)
    · obtain ⟨i, hi, h⟩ := accepts_of_done (s := ⟨before, c :: rest⟩) hdone
      exact ⟨i, hi, _, h⟩
    · obtain ⟨i, hi, h⟩ := accepts_of_after hnext h
      exact ⟨i, hi, u, h⟩

/-- **Running side by side** finds a match exactly when one of the runs can be done. -/
theorem run_isSome :
    ∀ {cs nodes before taken found},
      (program.run nodes before taken found cs).isSome = true ↔
        found.isSome = true ∨ program.Succeeds nodes ⟨before, cs⟩
  | [], nodes, before, taken, found => by
    rw [succeeds_nil, run]
    cases (program.reach ⟨before, none⟩ nodes).done with
    | true => simp
    | false => simp
  | c :: rest, nodes, before, taken, found => by
    rw [succeeds_cons, run]
    have hnone : ¬ program.Succeeds [] ⟨some c, rest⟩ := fun ⟨_, hi, _⟩ => List.not_mem_nil hi
    cases (program.reach ⟨before, some c⟩ nodes).done with
    | true =>
      simp only [if_true, true_or, or_true, iff_true]
      split
      · rfl
      · rw [run_isSome]
        exact Or.inl rfl
    | false =>
      simp only [Bool.false_eq_true, if_false, false_or]
      split
      · rename_i hafter
        rw [hafter]
        exact ⟨Or.inl, fun h => h.resolve_right hnone⟩
      · rename_i threads hne
        exact run_isSome

/-- A match at a place is found exactly when the program accepts there. -/
theorem matchAt_isSome {before : Option Char} {cs : List Char} :
    (program.matchAt before cs).isSome = true ↔ ∃ u, program.Accepts 0 ⟨before, cs⟩ u := by
  rw [matchAt, run_isSome]
  constructor
  · rintro (h | ⟨i, hi, h⟩)
    · cases h
    · rwa [← List.mem_singleton.mp hi]
  · intro h
    exact Or.inr ⟨0, List.mem_singleton.mpr rfl, h⟩

end Program

/-! ## 5. Searching -/

/-- The spots of a text that stands behind a character. -/
def spots (before : Option Char) : List Char → List Spot
  | [] => [⟨before, []⟩]
  | c :: rest => ⟨before, c :: rest⟩ :: spots (some c) rest

/-- A text is what stands behind its first spot. -/
theorem mem_spots_self (before : Option Char) (cs : List Char) : ⟨before, cs⟩ ∈ spots before cs := by
  cases cs <;> exact List.mem_cons_self

/-- **A search tries every spot.** -/
theorem Program.foundIn_iff {program : Program} :
    ∀ {cs : List Char} {before : Option Char},
      program.foundIn before cs = true ↔ ∃ s ∈ spots before cs, ∃ u, program.Accepts 0 s u
  | [], before => by
    rw [foundIn, matchAt_isSome]
    simp [spots]
  | c :: rest, before => by
    rw [foundIn, Bool.or_eq_true, matchAt_isSome, foundIn_iff]
    simp [spots]

/-- **A table matches a text** exactly when its expression matches from some spot of the text. -/
theorem Table.isMatch_program {r : Re} (h : r.Proper) (text : String) :
    (Table.mk (some r.program)).isMatch text = true ↔
      ∃ s ∈ spots none text.toList, ∃ u, r.extent s u := by
  rw [isMatch, Program.foundIn_iff]
  simp only [Re.accepts_program h]

end Shortlist.Pattern
