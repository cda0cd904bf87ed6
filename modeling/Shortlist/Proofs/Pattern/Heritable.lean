import Mathlib.Data.List.Basic
import Shortlist.Pattern.Parser
import Shortlist.Proofs.Pattern.Meaning

/-!
# What expressions are made of

A rule says what the pieces of an expression have to be like: the characters of its literals, its
classes, and the bounds of its repetitions.  The parser keeps expressions in their simplified form, so it takes
expressions apart and puts the pieces together in other ways all the time: literals are joined, single
characters become a class, what all alternatives begin with moves to the front.  A rule is *heritable* when
no such step leads out of it.  Then whatever is read of tokens that obey the rule obeys it, too.
-/

namespace Shortlist.Pattern

/-! ## 1. Rules -/

/-- What the pieces of an expression have to be like. -/
structure Rule where
  char : Char → Prop
  set : CharClass → Prop
  /-- The floor and the ceiling of a repetition. -/
  bounds : Nat → Option Nat → Prop

/-- What is made of pieces that obey the rule obeys it: the character of a class, a class of characters, a
union of classes, and the bounds of a repetition of what takes nothing. -/
structure Rule.Heritable (rule : Rule) : Prop where
  char? : ∀ {s c}, rule.set s → s.char? = some c → rule.char c
  ofList : ∀ {cs}, (∀ c ∈ cs, rule.char c) → rule.set (CharClass.ofList cs)
  unions : ∀ {classes}, (∀ s ∈ classes, rule.set s) → rule.set (CharClass.unions classes)
  once : ∀ {least most}, rule.bounds least most →
    rule.bounds (min least 1) (some (min (most.getD 1) 1))

namespace Re

variable {rule : Rule}

/-- All pieces of the expression obey the rule. -/
def Obeys (rule : Rule) : Re → Prop
  | .literal c cs => ∀ d ∈ c :: cs, rule.char d
  | .set s => rule.set s
  | .group _ r => r.Obeys rule
  | .seq a b => a.Obeys rule ∧ b.Obeys rule
  | .alt a b => a.Obeys rule ∧ b.Obeys rule
  | .repeated least most _ r => rule.bounds least most ∧ r.Obeys rule
  | .empty => True
  | .assertion _ => True

/-- A class that obeys the rule is an expression that does, also where it has a single character. -/
theorem obeys_ofClass (hrule : rule.Heritable) {s : CharClass} (h : rule.set s) :
    (ofClass s).Obeys rule := by
  unfold ofClass
  split
  · rename_i c hc
    exact List.forall_mem_singleton.mpr (hrule.char? h hc)
  · exact h

/-! ## 2. Sequences -/

/-- The parts of an expression that obeys the rule obey it. -/
theorem Obeys.of_mem_parts : ∀ {r : Re}, r.Obeys rule → ∀ {p}, p ∈ r.parts → p.Obeys rule
  | .seq a b, h, p, hp => by
    rcases List.mem_cons.mp hp with rfl | hp
    · exact h.1
    · exact Obeys.of_mem_parts h.2 hp
  | .empty, _, _, hp => absurd hp List.not_mem_nil
  | .literal _ _, h, _, hp => List.mem_singleton.mp hp ▸ h
  | .set _, h, _, hp => List.mem_singleton.mp hp ▸ h
  | .assertion _, h, _, hp => List.mem_singleton.mp hp ▸ h
  | .group _ _, h, _, hp => List.mem_singleton.mp hp ▸ h
  | .alt _ _, h, _, hp => List.mem_singleton.mp hp ▸ h
  | .repeated _ _ _ _, h, _, hp => List.mem_singleton.mp hp ▸ h

/-- Joining literals makes no new pieces. -/
theorem obeys_joinLiterals :
    ∀ {rs : List Re}, (∀ r ∈ rs, r.Obeys rule) → ∀ r ∈ joinLiterals rs, r.Obeys rule
  | [], _, r, hr => absurd hr List.not_mem_nil
  | r :: rest, h, p, hp => by
    have ih := obeys_joinLiterals fun q hq => h q (List.mem_cons_of_mem r hq)
    unfold joinLiterals at hp
    split at hp
    · rename_i c cs d ds behind heq
      rcases List.mem_cons.mp hp with rfl | hp
      · have hfirst : (Re.literal c cs).Obeys rule := h _ List.mem_cons_self
        have hnext : (Re.literal d ds).Obeys rule := ih _ (heq ▸ List.mem_cons_self)
        intro e he
        rw [← List.cons_append] at he
        exact (List.mem_append.mp he).elim (hfirst e) (hnext e)
      · exact ih p (heq ▸ List.mem_cons_of_mem _ hp)
    · rcases List.mem_cons.mp hp with rfl | hp
      · exact h p List.mem_cons_self
      · exact ih p hp

/-- A chain makes no new pieces. -/
theorem obeys_chain : ∀ {rs : List Re}, (∀ r ∈ rs, r.Obeys rule) → (chain rs).Obeys rule
  | [], _ => trivial
  | [r], h => h r List.mem_cons_self
  | r :: _ :: _, h =>
    ⟨h r List.mem_cons_self, obeys_chain fun p hp => h p (List.mem_cons_of_mem r hp)⟩

/-- **A sequence** obeys the rule if each member does. -/
theorem obeys_sequence {rs : List Re} (h : ∀ r ∈ rs, r.Obeys rule) : (sequence rs).Obeys rule := by
  refine obeys_chain (obeys_joinLiterals fun p hp => ?_)
  obtain ⟨r, hr, hp⟩ := List.mem_flatMap.mp hp
  exact (h r hr).of_mem_parts hp

/-! ## 3. Alternatives -/

/-- The alternatives of an expression that obeys the rule obey it. -/
theorem Obeys.of_mem_branches : ∀ {r : Re}, r.Obeys rule → ∀ {p}, p ∈ r.branches → p.Obeys rule
  | .alt a b, h, p, hp => by
    rcases List.mem_cons.mp hp with rfl | hp
    · exact h.1
    · exact Obeys.of_mem_branches h.2 hp
  | .empty, h, _, hp => List.mem_singleton.mp hp ▸ h
  | .literal _ _, h, _, hp => List.mem_singleton.mp hp ▸ h
  | .set _, h, _, hp => List.mem_singleton.mp hp ▸ h
  | .assertion _, h, _, hp => List.mem_singleton.mp hp ▸ h
  | .group _ _, h, _, hp => List.mem_singleton.mp hp ▸ h
  | .seq _ _, h, _, hp => List.mem_singleton.mp hp ▸ h
  | .repeated _ _ _ _, h, _, hp => List.mem_singleton.mp hp ▸ h

/-- Alternatives that obey the rule are one expression that does. -/
theorem obeys_alternatives :
    ∀ {rs : List Re}, (∀ r ∈ rs, r.Obeys rule) → (alternatives rs).Obeys rule
  | [], _ => trivial
  | [r], h => h r List.mem_cons_self
  | r :: _ :: _, h =>
    ⟨h r List.mem_cons_self, obeys_alternatives fun p hp => h p (List.mem_cons_of_mem r hp)⟩

/-- The class that alternatives are together is made of what they are by themselves. -/
theorem obeys_joinedClass? (hrule : rule.Heritable) {rs : List Re} (h : ∀ r ∈ rs, r.Obeys rule)
    {s : CharClass} (hs : joinedClass? rs = some s) : rule.set s := by
  unfold joinedClass? at hs
  split at hs
  · rename_i cs hcs
    cases hs
    rw [eq_map_of_mapM eq_literal_of_char? hcs] at h
    exact hrule.ofList fun c hc => h _ (List.mem_map_of_mem hc) c List.mem_cons_self
  · obtain ⟨classes, hclasses, rfl⟩ := Option.map_eq_some_iff.mp hs
    rw [eq_map_of_mapM eq_set_of_class? hclasses] at h
    exact hrule.unions fun s hs => h _ (List.mem_map_of_mem hs)

/-- A choice obeys the rule if each alternative does, without regard to what they begin with. -/
theorem obeys_plainChoice (hrule : rule.Heritable) {rs : List Re} (h : ∀ r ∈ rs, r.Obeys rule) :
    (plainChoice rs).Obeys rule := by
  have hbranches : ∀ p ∈ rs.flatMap branches, p.Obeys rule := fun p hp => by
    obtain ⟨r, hr, hp⟩ := List.mem_flatMap.mp hp
    exact (h r hr).of_mem_branches hp
  unfold plainChoice
  split
  · rename_i r heq
    exact hbranches r (heq ▸ List.mem_singleton.mpr rfl)
  · split
    · rename_i s hs
      exact obeys_ofClass hrule (obeys_joinedClass? hrule hbranches hs)
    · exact obeys_alternatives hbranches

/-- **A choice** obeys the rule if each alternative does. -/
theorem obeys_choice (hrule : rule.Heritable) {rs : List Re} (h : ∀ r ∈ rs, r.Obeys rule) :
    (choice rs).Obeys rule := by
  have hplain := obeys_plainChoice hrule h
  unfold choice
  split
  · rename_i a b heq
    rw [heq] at hplain
    have hparts : ∀ l ∈ (Re.alt a b).branches.map parts, ∀ p ∈ l, p.Obeys rule := fun l hl p hp => by
      obtain ⟨r, hr, rfl⟩ := List.mem_map.mp hl
      exact (hplain.of_mem_branches hr).of_mem_parts hp
    simp only
    split
    · exact hplain
    · refine obeys_sequence fun p hp => ?_
      rcases List.mem_append.mp hp with hp | hp
      · -- a shared part is a part of the first alternative
        have hfirst : a.parts ∈ (Re.alt a b).branches.map parts :=
          List.mem_map_of_mem List.mem_cons_self
        exact hparts _ hfirst p ((sharedByAll_begins hfirst).subset hp)
      · rw [List.mem_singleton.mp hp]
        refine obeys_plainChoice hrule fun q hq => ?_
        obtain ⟨l, hl, rfl⟩ := List.mem_map.mp hq
        exact obeys_sequence fun p hp => hparts l hl p (List.mem_of_mem_drop hp)
  · exact hplain

/-! ## 4. Repetitions -/

/-- A repetition that is kept as it is, dropped, or a single round. -/
theorem obeys_kept_repetition {least : Nat} {most : Option Nat} (greedy : Bool) {r : Re}
    (hbounds : rule.bounds least most) (h : r.Obeys rule) :
    (if most == some 0 then Re.empty
      else if least == 1 && most == some 1 then r
      else .repeated least most greedy r).Obeys rule := by
  split
  · trivial
  · split
    · exact h
    · exact ⟨hbounds, h⟩

/-- **A repetition** obeys the rule if its bounds and what is repeated do. -/
theorem obeys_repetition (hrule : rule.Heritable) {least : Nat} {most : Option Nat} (greedy : Bool)
    {r : Re} (hbounds : rule.bounds least most) (h : r.Obeys rule) :
    (repetition least most greedy r).Obeys rule := by
  unfold repetition
  cases r.takesNothing with
  | false => exact obeys_kept_repetition greedy hbounds h
  | true => exact obeys_kept_repetition greedy (hrule.once hbounds) h

end Re

/-! ## 5. The parser -/

/-- A token of which only expressions are made that obey the rule. -/
def Token.Obeys (rule : Rule) : Token → Prop
  | .atom r => r.value.Obeys rule
  | .repetition least most _ => rule.bounds least most
  | _ => True

variable {rule : Rule}

/-- All that was read of the group obeys the rule. -/
structure Group.Obeys (rule : Rule) (g : Group) : Prop where
  alternatives : ∀ n ∈ g.alternatives, n.value.Obeys rule
  pieces : ∀ n ∈ g.pieces, n.value.Obeys rule

namespace Group

variable {g : Group}

theorem Obeys.start (number : Option Nat) : (Group.start number).Obeys rule :=
  ⟨fun _ h => absurd h List.not_mem_nil, fun _ h => absurd h List.not_mem_nil⟩

theorem Obeys.add (h : g.Obeys rule) {n : Nested Re} (hn : n.value.Obeys rule) :
    (g.add n).Obeys rule :=
  ⟨h.alternatives, List.forall_mem_cons.mpr ⟨hn, h.pieces⟩⟩

/-- What stands side by side obeys the rule if each of it does. -/
theorem obeys_of_mem_map {ns : List (Nested Re)} (h : ∀ n ∈ ns, n.value.Obeys rule) :
    ∀ r ∈ ns.reverse.map Nested.value, r.Obeys rule :=
  List.forall_mem_map.mpr fun n hn => h n (List.mem_reverse.mp hn)

theorem Obeys.next (h : g.Obeys rule) : g.next.Obeys rule :=
  ⟨List.forall_mem_cons.mpr ⟨Re.obeys_sequence (obeys_of_mem_map h.pieces), h.alternatives⟩,
    fun _ hn => absurd hn List.not_mem_nil⟩

/-- The expression of what stands in the group obeys the rule. -/
theorem Obeys.content (hrule : rule.Heritable) (h : g.Obeys rule) : g.content.value.Obeys rule :=
  Re.obeys_choice hrule (obeys_of_mem_map h.next.alternatives)

theorem Obeys.close (hrule : rule.Heritable) (h : g.Obeys rule) : g.close.value.Obeys rule := by
  unfold Group.close
  split
  · exact h.content hrule
  · exact h.content hrule

end Group

namespace Reader

variable {r r' : Reader} {t : Token}

/-- All that was read obeys the rule. -/
def Obeys (rule : Rule) (r : Reader) : Prop := ∀ g ∈ r.group :: r.around, g.Obeys rule

theorem obeys_start : Reader.start.Obeys rule :=
  List.forall_mem_singleton.mpr (Group.Obeys.start none)

/-- **A step of the parser** does not lead out of the rule. -/
theorem Obeys.step? (hrule : rule.Heritable) (h : r.Obeys rule) (ht : t.Obeys rule)
    (hstep : r.step? t = some r') : r'.Obeys rule := by
  have hgroup := h r.group List.mem_cons_self
  have haround : ∀ g ∈ r.around, g.Obeys rule := fun g hg => h g (List.mem_cons_of_mem _ hg)
  have henter : ∀ isNumbered, (r.enter isNumbered).Obeys rule := fun _ =>
    List.forall_mem_cons.mpr ⟨Group.Obeys.start _, h⟩
  cases t with
  | opening group =>
    cases group with
    | plain =>
      cases hstep
      exact henter false
    | numbered =>
      cases hstep
      exact henter true
    | named name =>
      obtain ⟨-, heq⟩ := Option.ite_none_left_eq_some.mp hstep
      cases heq
      exact henter true
  | closing =>
    unfold Reader.step? at hstep
    simp only at hstep
    split at hstep
    · cases hstep
    · rename_i outer rest hopen
      cases hstep
      rw [hopen] at haround
      obtain ⟨houter, hrest⟩ := List.forall_mem_cons.mp haround
      exact List.forall_mem_cons.mpr ⟨houter.add (hgroup.close hrule), hrest⟩
  | bar =>
    cases hstep
    exact List.forall_mem_cons.mpr ⟨hgroup.next, haround⟩
  | atom a =>
    cases hstep
    exact List.forall_mem_cons.mpr ⟨hgroup.add ht, haround⟩
  | repetition least most greedy =>
    unfold Reader.step? at hstep
    simp only at hstep
    split at hstep
    · cases hstep
    · rename_i last rest hpieces
      cases hstep
      have hmem := hgroup.pieces
      rw [hpieces] at hmem
      obtain ⟨hlast, hrest⟩ := List.forall_mem_cons.mp hmem
      have hrepeated := Re.obeys_repetition hrule greedy ht hlast
      exact List.forall_mem_cons.mpr
        ⟨⟨hgroup.alternatives, List.forall_mem_cons.mpr ⟨hrepeated, hrest⟩⟩, haround⟩

/-- **A run of the parser** does not lead out of the rule. -/
theorem Obeys.run (hrule : rule.Heritable) :
    ∀ {ts : List Token} {r r' : Reader}, r.Obeys rule → (∀ t ∈ ts, t.Obeys rule) →
      ts.foldlM Reader.step? r = some r' → r'.Obeys rule
  | [], _, _, h, _, hrun => by
    cases hrun
    exact h
  | t :: ts, r, r', h, hts, hrun => by
    obtain ⟨ht, hts⟩ := List.forall_mem_cons.mp hts
    obtain ⟨r₁, hstep, hrest⟩ := Option.bind_eq_some_iff.mp hrun
    exact Obeys.run hrule (h.step? hrule ht hstep) hts hrest

end Reader

/-- **What is read of tokens that obey a heritable rule obeys it.** -/
theorem Re.obeys_of_ofTokens? (hrule : rule.Heritable) {ts : List Token} {n : Nested Re}
    (hts : ∀ t ∈ ts, t.Obeys rule) (h : Re.ofTokens? ts = some n) : n.value.Obeys rule := by
  obtain ⟨r, hread, hfinish⟩ := Option.bind_eq_some_iff.mp h
  obtain ⟨-, heq⟩ := Option.ite_none_right_eq_some.mp hfinish
  cases heq
  exact (Reader.obeys_start.run hrule hts hread r.group List.mem_cons_self).content hrule

end Shortlist.Pattern
