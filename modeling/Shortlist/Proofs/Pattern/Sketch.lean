import Shortlist.Pattern.Parser
import Shortlist.Proofs.Pattern.Names
import Shortlist.Proofs.Pattern.Token

/-!
# Parsing, seen by its meaning

The parser builds expressions in their simplified form and numbers their groups, so what it builds
inside of a larger pattern is not what it builds from the piece alone.  What the pieces mean does not
depend on that.  This file runs the parser on extents in place of expressions: a `Sketch` is what was
read of a group by its meaning alone, and a step of the parser is a step on sketches.

On sketches, reading a pattern inside of an open group is LITERALLY reading it by itself with the
group put underneath (`Sketch.run_onTop`), and so is reading one pattern behind the other with bars in
between (`Sketch.run_joined`).
-/

namespace Shortlist.Pattern

/-! ## 1. Sketches -/

/-- What was read of a group, by its meaning: the alternatives that are finished and the pieces of the
one that is not, both with the latest first. -/
structure Sketch where
  alternatives : List Extent
  pieces : List Extent

namespace Sketch

/-- A group of which nothing was read. -/
def start : Sketch := ⟨[], []⟩

/-- Adds a piece to the alternative that is being read. -/
def add (g : Sketch) (e : Extent) : Sketch := { g with pieces := e :: g.pieces }

/-- Begins the next alternative. -/
def next (g : Sketch) : Sketch := ⟨Extent.chain g.pieces.reverse :: g.alternatives, []⟩

/-- What stands in the group. -/
def meaning (g : Sketch) : Extent := Extent.anyOf g.next.alternatives.reverse

/-- Reads one token, with the innermost open group first. -/
def step? : List Sketch → Token → Option (List Sketch)
  | gs, .opening _ => some (start :: gs)
  | g :: outer :: gs, .closing => some (outer.add g.meaning :: gs)
  | g :: gs, .bar => some (g.next :: gs)
  | g :: gs, .atom a => some (g.add a.value.extent :: gs)
  | ⟨alternatives, e :: pieces⟩ :: gs, .repetition least most _ =>
    some (⟨alternatives, Extent.repeated least most e :: pieces⟩ :: gs)
  | _, _ => none

/-- Reads tokens from left to right. -/
def run (gs : List Sketch) (ts : List Token) : Option (List Sketch) := ts.foldlM step? gs

@[simp] theorem run_nil (gs : List Sketch) : run gs [] = some gs := rfl

theorem run_cons (gs : List Sketch) (t : Token) (ts : List Token) :
    run gs (t :: ts) = (step? gs t).bind (run · ts) := rfl

theorem run_append (gs : List Sketch) (ts us : List Token) :
    run gs (ts ++ us) = (run gs ts).bind (run · us) := by
  rw [run, List.foldlM_append]
  rfl

/-! ## 2. Reading inside of a group -/

/-- Groups on top of alternatives that were read of the outermost one before, and of the groups
around it. -/
def onTop (before : List Extent) (around : List Sketch) : List Sketch → List Sketch
  | [] => around
  | [g] => ⟨g.alternatives ++ before, g.pieces⟩ :: around
  | g :: outer :: gs => g :: onTop before around (outer :: gs)

variable {before : List Extent} {around : List Sketch}

/-- A step is the same on top of other groups. -/
theorem step?_onTop {gs gs' : List Sketch} {t : Token} (h : step? gs t = some gs') (hne : gs ≠ []) :
    step? (onTop before around gs) t = some (onTop before around gs') ∧ gs' ≠ [] := by
  match gs, hne with
  | [g], _ =>
    cases t with
    | repetition least most greedy =>
      obtain ⟨alternatives, pieces⟩ := g
      cases pieces with
      | nil => cases h
      | cons e pieces =>
        cases h
        exact ⟨rfl, List.cons_ne_nil _ _⟩
    | closing => cases h
    | _ =>
      cases h
      exact ⟨rfl, List.cons_ne_nil _ _⟩
  | g :: outer :: gs, _ =>
    cases t with
    | repetition least most greedy =>
      obtain ⟨alternatives, pieces⟩ := g
      cases pieces with
      | nil => cases h
      | cons e pieces =>
        cases h
        exact ⟨rfl, List.cons_ne_nil _ _⟩
    | closing =>
      cases h
      cases gs with
      | nil => exact ⟨rfl, List.cons_ne_nil _ _⟩
      | cons g' gs => exact ⟨rfl, List.cons_ne_nil _ _⟩
    | _ =>
      cases h
      exact ⟨rfl, List.cons_ne_nil _ _⟩

/-- **Tokens are read the same on top of other groups.** -/
theorem run_onTop :
    ∀ {ts : List Token} {gs gs' : List Sketch}, run gs ts = some gs' → gs ≠ [] →
      run (onTop before around gs) ts = some (onTop before around gs')
  | [], gs, gs', h, _ => by
    cases h
    rfl
  | t :: ts, gs, gs', h, hne => by
    rw [run_cons] at h ⊢
    obtain ⟨gs₁, hstep, hrest⟩ := Option.bind_eq_some_iff.mp h
    obtain ⟨hstep, hne⟩ := step?_onTop hstep hne
    rw [hstep, Option.bind_some]
    exact run_onTop hrest hne

/-- **Joined patterns have the alternatives of all of them.** -/
theorem run_joined {tss : List (List Token)} {gs : List Sketch}
    (h : List.Forall₂ (fun ts g => run [start] ts = some [g]) tss gs) (hne : tss ≠ []) :
    ∃ g', run (⟨before, []⟩ :: around) ([Token.bar].intercalate tss) = some (g' :: around) ∧
      ∀ e, e ∈ g'.next.alternatives ↔ e ∈ before ∨ ∃ g ∈ gs, e ∈ g.next.alternatives := by
  induction h generalizing before with
  | nil => exact absurd rfl hne
  | @cons ts g tss gs hts htss ih =>
    have hread : run (⟨before, []⟩ :: around) ts =
        some (⟨g.alternatives ++ before, g.pieces⟩ :: around) :=
      run_onTop hts (List.cons_ne_nil _ _)
    cases htss with
    | nil =>
      refine ⟨_, by rw [List.intercalate_singleton]; exact hread, fun e => ?_⟩
      simp only [next, List.mem_cons, List.mem_append, List.not_mem_nil, or_false,
        exists_eq_left]
      constructor
      · rintro (h | h | h)
        · exact Or.inr (Or.inl h)
        · exact Or.inr (Or.inr h)
        · exact Or.inl h
      · rintro (h | h | h)
        · exact Or.inr (Or.inr h)
        · exact Or.inl h
        · exact Or.inr (Or.inl h)
    | cons hts' htss' =>
      obtain ⟨g', hrest, hmem⟩ :=
        @ih (Extent.chain g.pieces.reverse :: (g.alternatives ++ before)) (List.cons_ne_nil _ _)
      refine ⟨g', ?_, fun e => ?_⟩
      · rw [List.intercalate_cons_cons, List.append_assoc, run_append, hread, Option.bind_some]
        exact hrest
      · rw [hmem]
        simp only [next, List.mem_cons, List.mem_append, exists_eq_or_imp]
        constructor
        · rintro ((h | h | h) | h)
          · exact Or.inr (Or.inl (Or.inl h))
          · exact Or.inr (Or.inl (Or.inr h))
          · exact Or.inl h
          · exact Or.inr (Or.inr h)
        · rintro (h | (h | h) | h)
          · exact Or.inl (Or.inr (Or.inr h))
          · exact Or.inl (Or.inl h)
          · exact Or.inl (Or.inr (Or.inl h))
          · exact Or.inr h

end Sketch

/-! ## 3. The parser -/

/-- What nested expressions mean. -/
def extents (ns : List (Nested Re)) : List Extent := ns.map (·.value.extent)

/-- What was read of a group, by its meaning. -/
def Group.sketch (g : Group) : Sketch := ⟨extents g.alternatives, extents g.pieces⟩

namespace Group

variable {g : Group}

/-- The next alternative, by its meaning. -/
theorem sketch_next (g : Group) : g.next.sketch = g.sketch.next := by
  have hpieces : (Re.sequence (g.pieces.reverse.map Nested.value)).extent =
      Extent.chain (extents g.pieces).reverse := by
    rw [Re.extent_sequence, extents, ← List.map_reverse, List.map_map]
    rfl
  exact congrArg (fun e => Sketch.mk (e :: extents g.alternatives) []) hpieces

/-- **What stands in a group means its alternatives.** -/
theorem extent_content (g : Group) : g.content.value.extent = g.sketch.meaning := by
  have hchoice : g.content.value.extent =
      Extent.anyOf ((g.next.alternatives.reverse.map Nested.value).map Re.extent) :=
    Re.extent_choice _
  rw [hchoice, Sketch.meaning, ← sketch_next, List.map_map, List.map_reverse]
  rfl

theorem extent_close (g : Group) : g.close.value.extent = g.sketch.meaning := by
  rw [← extent_content]
  unfold Group.close
  split
  · rfl
  · rfl

end Group

namespace Reader

variable {r : Reader} {t : Token}

/-- What was read of the open groups, the innermost one first. -/
def sketch (r : Reader) : List Sketch := (r.group :: r.around).map Group.sketch

/-- **A step of the parser is a step on sketches**, unless it reads a name that is in use. -/
theorem sketch_step? (ht : t.Proper) (hnew : ∀ name ∈ t.name?, name ∉ r.names) :
    (r.step? t).map sketch = Sketch.step? r.sketch t := by
  cases t with
  | opening group =>
    cases group with
    | plain => rfl
    | numbered => rfl
    | named name =>
      rw [step?, if_neg (hnew name rfl)]
      rfl
  | closing =>
    obtain ⟨group, around, numbered, names⟩ := r
    cases around with
    | nil => rfl
    | cons outer around =>
      show some ((outer.add group.close :: around).map Group.sketch) = _
      rw [List.map_cons]
      refine congrArg (fun e => some (outer.sketch.add e :: around.map Group.sketch)) ?_
      exact group.extent_close
  | bar => exact congrArg (fun g => some (g :: r.around.map Group.sketch)) r.group.sketch_next
  | atom a => rfl
  | repetition least most greedy =>
    obtain ⟨⟨number, alternatives, pieces⟩, around, numbered, names⟩ := r
    cases pieces with
    | nil => rfl
    | cons last pieces =>
      have hlast := Re.extent_repetition least most greedy last.value ht
      exact congrArg (fun e => some
        (Sketch.mk (extents alternatives) (e :: extents pieces) :: around.map Group.sketch)) hlast

/-- **A run of the parser is a run on sketches**, if no name stands twice. -/
theorem run_sketch {ts : List Token} (hts : ∀ t ∈ ts, t.Proper) (hfresh : Fresh r.names ts) :
    (ts.foldlM Reader.step? r).map sketch = Sketch.run r.sketch ts :=
  run_map (fun t ht _ => sketch_step? (hts t ht)) hfresh

end Reader

/-- **Tokens are read as an expression exactly when no name stands twice and the run on sketches closes
all groups**, and then the expression is proper and means what the sketch means. -/
theorem Re.ofTokens?_iff {ts : List Token} (hts : ∀ t ∈ ts, t.Proper) :
    (∀ n, Re.ofTokens? ts = some n → (namesOf ts).Nodup ∧
      ∃ g, Sketch.run [Sketch.start] ts = some [g] ∧ n.value.extent = g.meaning ∧ n.value.Proper) ∧
    ∀ g, (namesOf ts).Nodup → Sketch.run [Sketch.start] ts = some [g] →
      ∃ n, Re.ofTokens? ts = some n ∧ n.value.extent = g.meaning ∧ n.value.Proper := by
  constructor
  · intro n hn
    have hproper := Re.proper_of_ofTokens? hts hn
    obtain ⟨r, hread, hfinish⟩ := Option.bind_eq_some_iff.mp hn
    obtain ⟨hclosed, heq⟩ := Option.ite_none_right_eq_some.mp hfinish
    cases heq
    have hfresh : Fresh Reader.start.names ts := Reader.fresh_of_run hread
    have hrun := Reader.run_sketch hts hfresh
    rw [hread] at hrun
    have hnone : r.around = [] := List.isEmpty_iff.mp hclosed
    refine ⟨fresh_nil_iff.mp hfresh, r.group.sketch, ?_, r.group.extent_content, hproper⟩
    have hsketch : r.sketch = [r.group.sketch] := by rw [Reader.sketch, hnone]; rfl
    rw [← hsketch]
    exact hrun.symm
  · intro g hnodup hg
    have hrun := Reader.run_sketch (r := Reader.start) hts (fresh_nil_iff.mpr hnodup)
    rw [show Sketch.run Reader.start.sketch ts = some [g] from hg] at hrun
    obtain ⟨r, hread, hsketch⟩ := Option.map_eq_some_iff.mp hrun
    obtain ⟨hgroup, hnone⟩ := List.cons.inj hsketch
    have htokens : Re.ofTokens? ts = some r.group.content := by
      rw [Re.ofTokens?, hread, Option.bind_some, Reader.finish?,
        if_pos (List.isEmpty_iff.mpr (List.map_eq_nil_iff.mp hnone))]
    exact ⟨r.group.content, htokens, by rw [← hgroup]; exact r.group.extent_content,
      Re.proper_of_ofTokens? hts htokens⟩

end Shortlist.Pattern
