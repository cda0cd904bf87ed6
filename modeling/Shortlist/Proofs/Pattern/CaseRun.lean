import Shortlist.Proofs.Pattern.CaseBlind
import Shortlist.Proofs.Pattern.Search

/-!
# Runs that do not see the case of ASCII letters

A program whose classes do not see the case goes through the same nodes in a text and in the text with A to
Z in lower case: at every place the same assertions hold, so the same nodes are reached, and the same of
them take the next character.  So a search stops at the same place, every match has the same length, and
the matches that are listed are the same but for the case.
-/

namespace Shortlist.Pattern

/-! ## 1. Nodes -/

/-- The node takes both cases of an ASCII letter, or neither. -/
def Node.CaseBlind : Node → Prop
  | .take s _ => Text.CaseBlind s.has
  | _ => True

/-- No node sees the case. -/
def AllCaseBlind (nodes : List Node) : Prop := ∀ node ∈ nodes, node.CaseBlind

namespace AllCaseBlind

theorem cons {node : Node} {nodes : List Node} (h : node.CaseBlind) (hs : AllCaseBlind nodes) :
    AllCaseBlind (node :: nodes) :=
  List.forall_mem_cons.mpr ⟨h, hs⟩

theorem singleton {node : Node} (h : node.CaseBlind) : AllCaseBlind [node] :=
  List.forall_mem_singleton.mpr h

theorem append {nodes more : List Node} (h : AllCaseBlind nodes) (hmore : AllCaseBlind more) :
    AllCaseBlind (nodes ++ more) :=
  List.forall_mem_append.mpr ⟨h, hmore⟩

theorem flatMap {α : Type} {l : List α} {f : α → List Node} (h : ∀ a, AllCaseBlind (f a)) :
    AllCaseBlind (l.flatMap f) := fun node hnode => by
  obtain ⟨a, -, hnode⟩ := List.mem_flatMap.mp hnode
  exact h a node hnode

theorem choose (greedy : Bool) (round past : Nat) : (Node.choose greedy round past).CaseBlind := by
  cases greedy <;> trivial

variable {round : (start next : Nat) → List Node}

theorem fixedRounds (h : ∀ start next, AllCaseBlind (round start next)) (count start least : Nat) :
    AllCaseBlind (Pattern.fixedRounds round count start least) :=
  flatMap fun _ => h _ _

theorem optionalRounds (h : ∀ start next, AllCaseBlind (round start next)) (count : Nat)
    (greedy : Bool) (start next extra : Nat) :
    AllCaseBlind (Pattern.optionalRounds round count greedy start next extra) :=
  flatMap fun _ => cons (choose _ _ _) (h _ _)

theorem endlessRounds (h : ∀ start next, AllCaseBlind (round start next)) (count : Nat)
    (greedy : Bool) (start next : Nat) :
    AllCaseBlind (Pattern.endlessRounds round count greedy start next) :=
  append (h _ _) (singleton (choose _ _ _))

/-- The nodes of a repetition are those of its rounds and forks. -/
theorem repeatedNodes (h : ∀ start next, AllCaseBlind (round start next)) (takes : Bool)
    (count least : Nat) (most : Option Nat) (greedy : Bool) (start next : Nat) :
    AllCaseBlind (Pattern.repeatedNodes round takes count least most greedy start next) := by
  unfold Pattern.repeatedNodes
  split
  · split
    · refine cons (choose _ _ _) ?_
      split
      · exact h _ _
      · exact endlessRounds h _ _ _ _
    · exact append (fixedRounds h _ _ _) (endlessRounds h _ _ _ _)
  · split
    · exact singleton trivial
    · split
      · exact append (fixedRounds h _ _ _) (h _ _)
      · exact append (fixedRounds h _ _ _) (optionalRounds h _ _ _ _ _)

/-- The nodes of a literal of characters that have no other case. -/
theorem literalNodes :
    ∀ {c : Char} {cs : List Char} (start next : Nat),
      (∀ d ∈ c :: cs, Text.CaseBlind (CharClass.single d).has) →
      AllCaseBlind (Pattern.literalNodes start next c cs)
  | _, [], _, _, h => singleton (h _ List.mem_cons_self)
  | _, _ :: _, _, _, h =>
    cons (h _ List.mem_cons_self)
      (literalNodes _ _ fun d hd => h d (List.mem_cons_of_mem _ hd))

/-- **The nodes of an expression** that obeys the rule do not see the case. -/
theorem nodes : ∀ {r : Re}, r.Obeys Rule.caseBlind → ∀ start next, AllCaseBlind (r.nodes start next)
  | .empty, _, _, _ => singleton trivial
  | .literal _ _, h, start, next => literalNodes start next h
  | .set _, h, _, _ => singleton h
  | .assertion _, _, _, _ => singleton trivial
  | .group _ r, h, start, next => nodes (r := r) h start next
  | .seq _ _, ⟨ha, hb⟩, _, _ => append (nodes ha _ _) (nodes hb _ _)
  | .alt _ _, ⟨ha, hb⟩, _, _ => cons trivial (append (nodes ha _ _) (nodes hb _ _))
  | .repeated _ _ _ _, ⟨_, h⟩, _, _ => repeatedNodes (nodes h) _ _ _ _ _ _ _

end AllCaseBlind

/-! ## 2. Places -/

/-- **The same assertions hold** in either case. -/
theorem Assertion.holds_map_toLower (before behind : Option Char) (a : Assertion) :
    a.holds ⟨before.map Char.toLower, behind.map Char.toLower⟩ = a.holds ⟨before, behind⟩ := by
  have hword : ∀ o : Option Char, (o.map Char.toLower).any Text.isWord = o.any Text.isWord := by
    rintro (_ | c)
    · rfl
    · exact Text.caseBlind_isWord c
  cases a <;> simp only [holds, hword, Option.isNone_map]

namespace Program

variable {program : Program} {p q : Place}

/-- An exploration only asks which assertions hold. -/
theorem explore_congr (h : ∀ a : Assertion, a.holds p = a.holds q) :
    ∀ (steps : Nat) (ahead : List Nat) (seen : Array Bool) (takes : List (CharClass × Nat)),
      program.explore p steps ahead seen takes = program.explore q steps ahead seen takes
  | 0, _, _, _ => by rw [explore, explore]
  | _ + 1, [], _, _ => by simp only [explore]
  | steps + 1, i :: ahead, seen, takes => by
    simp only [explore, h]
    split
    · exact explore_congr h _ _ _ _
    · split
      · exact explore_congr h _ _ _ _
      · exact explore_congr h _ _ _ _
      · exact explore_congr h _ _ _ _
      · exact explore_congr h _ _ _ _
      · rfl
      · rfl

/-- The same nodes are reached in either case. -/
theorem reach_map_toLower (before behind : Option Char) (nodes : List Nat) :
    program.reach ⟨before.map Char.toLower, behind.map Char.toLower⟩ nodes =
      program.reach ⟨before, behind⟩ nodes :=
  explore_congr (Assertion.holds_map_toLower before behind) _ _ _ _

/-! ## 3. Runs -/

/-- The program of an expression that does not see the case. -/
def CaseBlind (program : Program) : Prop :=
  ∀ (i : Nat) (node : Node), program[i]? = some node → node.CaseBlind

theorem caseBlind_of_obeys {r : Re} (h : r.Obeys Rule.caseBlind) : r.program.CaseBlind := by
  intro i node hnode
  have hall : AllCaseBlind (r.nodes 0 r.nodeCount ++ [Node.done]) :=
    (AllCaseBlind.nodes h _ _).append (AllCaseBlind.singleton trivial)
  exact hall node (List.mem_toArray.mp (Array.mem_of_getElem? hnode))

/-- Whatever a program can take, it takes in either case. -/
theorem CaseBlind.of_mem_takes (h : program.CaseBlind) {nodes : List Nat} {x : CharClass × Nat}
    (hx : x ∈ (program.reach p nodes).takes) : Text.CaseBlind x.1.has := by
  obtain ⟨_, -, i, node, -, hnode, htaken⟩ :=
    ((explore_sound _ _ _ _).1 x hx).resolve_left List.not_mem_nil
  have hblind := h i node hnode
  cases node with
  | take s next =>
    rw [List.mem_singleton.mp htaken]
    exact hblind
  | check => cases htaken
  | skip => cases htaken
  | fork => cases htaken
  | done => cases htaken

/-- **The same nodes take the next character.** -/
theorem CaseBlind.after_toLower (h : program.CaseBlind) (nodes : List Nat) (c : Char) :
    (program.reach p nodes).after c.toLower = (program.reach p nodes).after c :=
  List.filterMap_congr fun ⟨s, next⟩ hx => by
    have hhas : s.has c.toLower = s.has c := h.of_mem_takes hx c
    simp only [hhas]

/-- **A run** is the same in either case. -/
theorem CaseBlind.run_map_toLower (h : program.CaseBlind) :
    ∀ (cs : List Char) (threads : List Nat) (before : Option Char) (taken : Nat) (found : Option Nat),
      program.run threads (before.map Char.toLower) taken found (cs.map Char.toLower) =
        program.run threads before taken found cs
  | [], threads, before, taken, found => by
    rw [List.map_nil, run, run]
    have hreach := @reach_map_toLower program before none threads
    rw [Option.map_none] at hreach
    rw [hreach]
  | c :: rest, threads, before, taken, found => by
    rw [List.map_cons, run, run]
    have hreach := @reach_map_toLower program before (some c) threads
    rw [Option.map_some] at hreach
    rw [hreach, h.after_toLower]
    split
    · rfl
    · exact h.run_map_toLower rest _ (some c) _ _

theorem CaseBlind.matchAt_map_toLower (h : program.CaseBlind) (before : Option Char) (cs : List Char) :
    program.matchAt (before.map Char.toLower) (cs.map Char.toLower) = program.matchAt before cs :=
  h.run_map_toLower cs [0] before 0 none

/-! ## 4. Searches -/

/-- **A search** finds something in either case, or in neither. -/
theorem CaseBlind.foundIn_map_toLower (h : program.CaseBlind) :
    ∀ (cs : List Char) (before : Option Char),
      program.foundIn (before.map Char.toLower) (cs.map Char.toLower) = program.foundIn before cs
  | [], before => by
    rw [List.map_nil, foundIn, foundIn]
    exact congrArg Option.isSome (h.matchAt_map_toLower before [])
  | c :: rest, before => by
    rw [List.map_cons, foundIn, foundIn, ← List.map_cons, h.matchAt_map_toLower,
      ← h.foundIn_map_toLower rest (some c), Option.map_some]

/-- **The matches** are the same but for the case. -/
theorem CaseBlind.occurrencesFrom_map_toLower (h : program.CaseBlind) :
    ∀ (cs : List Char) (before : Option Char) (skip : Nat) (adjacent : Bool),
      program.occurrencesFrom (before.map Char.toLower) skip adjacent (cs.map Char.toLower) =
        (program.occurrencesFrom before skip adjacent cs).map (List.map Char.toLower)
  | [], before, skip, adjacent => by
    have hmatch := h.matchAt_map_toLower before []
    rw [List.map_nil] at hmatch ⊢
    rw [occurrencesFrom, occurrencesFrom, hmatch]
    cases program.matchAt before [] with
    | none => rfl
    | some _ => cases adjacent <;> rfl
  | c :: rest, before, skip + 1, adjacent => by
    rw [List.map_cons, occurrencesFrom, occurrencesFrom]
    exact h.occurrencesFrom_map_toLower rest (some c) skip adjacent
  | c :: rest, before, 0, adjacent => by
    have hnext := fun skip adjacent => h.occurrencesFrom_map_toLower rest (some c) skip adjacent
    have hmatch := h.matchAt_map_toLower before (c :: rest)
    rw [Option.map_some] at hnext
    rw [List.map_cons] at hmatch ⊢
    rw [occurrencesFrom, occurrencesFrom, hmatch]
    cases program.matchAt before (c :: rest) with
    | none => exact hnext 0 false
    | some n =>
      cases n with
      | zero =>
        cases adjacent with
        | true => exact hnext 0 false
        | false => exact congrArg ([] :: ·) (hnext 0 false)
      | succ n =>
        simp only [List.map_cons, hnext n true, List.map_take]

/-- In lower case the matches are the same. -/
theorem CaseBlind.lowered_occurrences (h : program.CaseBlind) (cs : List Char) :
    (program.occurrences (cs.map Char.toLower)).map Text.lowerChars =
      (program.occurrences cs).map Text.lowerChars := by
  have hmatches := h.occurrencesFrom_map_toLower cs none 0 false
  rw [Option.map_none] at hmatches
  rw [occurrences, hmatches, List.map_map, occurrences]
  exact List.map_congr_left fun found _ => Text.lowerChars_map_toLower found

end Program

/-! ## 5. Tables -/

variable [CharacterData]

namespace Table

/-- The program of the table, if it has one, does not see the case. -/
def CaseBlind (t : Table) : Prop := ∀ program ∈ t.program, program.CaseBlind

/-- **Every table that compiles** does not see the case. -/
theorem caseBlind_of_compile? {patterns : List String} {wholeWords : Bool} {t : Table}
    (h : compile? patterns wholeWords = some t) : t.CaseBlind := by
  unfold compile? at h
  split at h
  · cases h
    exact fun _ hnone => absurd hnone (Option.not_mem_none _)
  · obtain ⟨r, hr, rfl⟩ := Option.map_eq_some_iff.mp h
    intro program hprogram
    rw [← Option.some.inj hprogram]
    exact Program.caseBlind_of_obeys (Re.obeys_caseBlind_of_parse? (Option.filter_eq_some_iff.mp hr).1)

section

variable {patterns : List String} {wholeWords : Bool} {t : Table} {a b : String}

/-- **A table matches both texts or neither.** -/
theorem isMatch_eq (h : compile? patterns wholeWords = some t)
    (hsame : Text.sameIgnoringCase a b = true) : t.isMatch a = t.isMatch b := by
  have hblind := caseBlind_of_compile? h
  obtain ⟨_ | program⟩ := t
  · rfl
  · exact Text.eq_of_sameIgnoringCase
      (fun cs => (hblind program rfl).foundIn_map_toLower cs none) hsame

/-- **A table has as many different matches in both texts.** -/
theorem distinctMatches_eq (h : compile? patterns wholeWords = some t)
    (hsame : Text.sameIgnoringCase a b = true) : t.distinctMatches a = t.distinctMatches b := by
  have hblind := caseBlind_of_compile? h
  obtain ⟨_ | program⟩ := t
  · rfl
  · have hmatches := Text.eq_of_sameIgnoringCase
      (f := fun cs => (program.occurrences cs).map Text.lowerChars)
      (hblind program rfl).lowered_occurrences hsame
    simp only [distinctMatches, hmatches]

end

end Table

end Shortlist.Pattern
