import Shortlist.Proofs.Pipeline.Rearranging

/-!
# Links of kept records

When some cleaning stage stands before some dedup stage, no two records that a run keeps have the same
link, empty ones apart, and no link has blanks at its ends.  It does not matter which other stages there
are, nor where.

Two facts carry this.  Behind the cleaning stage a link is trimmed, and then no stage changes it any
more, not even another cleaning stage (`link_of_processThrough`); so the link that the dedup stage takes
down is the link that comes out.  And the dedup stage never forgets (`Remembering`), so it holds the
links of everything that came out of the pipeline, whatever later stages dropped besides.  The invariant
of the run is `Guarded`: the links that came out so far are held by that stage, differ from each other,
and are trimmed.
-/

namespace Shortlist

/-! ## 1. Stages and the links that pass them -/

/-- A stage leaves a trimmed link alone. -/
theorem Stage.link_of_process {s s' : Stage} {r k : Record}
    (h : s.process r = (.keep k, s')) (htrim : Text.trim r.link = r.link) : k.link = r.link := by
  cases s with
  | cleaning =>
    cases h
    exact htrim
  | categorizing c =>
    cases h
    rfl
  | scoring scorer =>
    obtain ⟨hkeep, -⟩ := Prod.mk.inj h
    rw [Scorer.judge_eq] at hkeep
    split_ifs at hkeep
    cases hkeep
    rfl
  | dedup seen =>
    rw [Stage.process] at h
    cases hpass : (seen.offer r).1 with
    | true =>
      simp only [hpass, if_true] at h
      cases h
      rfl
    | false =>
      simp only [hpass, Bool.false_eq_true, if_false] at h
      cases h

/-- **Stages leave a trimmed link alone**, however many there are. -/
theorem link_of_processThrough {stages : List Stage} {r k : Record}
    (h : (processThrough stages r).1 = .keep k) (htrim : Text.trim r.link = r.link) :
    k.link = r.link := by
  induction stages generalizing r with
  | nil =>
    cases h
    rfl
  | cons s stages ih =>
    rw [processThrough] at h
    rcases hs : s.process r with ⟨m | reason, s'⟩
    · rw [hs] at h
      have hlink := Stage.link_of_process hs htrim
      rw [ih h (by rw [hlink, htrim]), hlink]
    · rw [hs] at h
      cases h

/-- The nonempty links of some records. -/
def linksOf (rs : List Record) : List String := (rs.map Record.link).filter (· ≠ "")

theorem linksOf_append (a b : List Record) : linksOf (a ++ b) = linksOf a ++ linksOf b := by
  simp only [linksOf, List.map_append, List.filter_append]

/-- The link of a single record. -/
theorem mem_linksOf_keep {k : Record} {link : String} :
    link ∈ linksOf (Outcome.keep k).kept ↔ link = k.link ∧ link ≠ "" := by
  simp [linksOf, Outcome.kept]

/-- A record that is dropped leaves no link. -/
theorem linksOf_drop (reason : DropReason) : linksOf (Outcome.drop reason).kept = [] := rfl

/-! ## 2. A dedup stage behind a cleaning stage -/

/-- Some dedup stage among these remembers all these links. -/
def Remembering (links : List String) (stages : List Stage) : Prop :=
  ∃ middle seen back, stages = middle ++ .dedup seen :: back ∧ ∀ link ∈ links, link ∈ seen.links

/-- Some dedup stage behind a cleaning stage remembers all these links. -/
def Guarding (links : List String) (stages : List Stage) : Prop :=
  ∃ front rest, stages = front ++ .cleaning :: rest ∧ Remembering links rest

variable {links : List String} {stages : List Stage}

/-- **A trimmed link in front of the dedup stage**: if the record is kept, its link is a new one, and it
is remembered from then on. -/
theorem Remembering.process (h : Remembering links stages) {r : Record}
    (htrim : Text.trim r.link = r.link) :
    Remembering (links ++ linksOf (processThrough stages r).1.kept) (processThrough stages r).2 ∧
      ∀ link ∈ linksOf (processThrough stages r).1.kept, link ∉ links ∧ link = r.link := by
  obtain ⟨middle, seen, back, rfl, hseen⟩ := h
  rw [processThrough_append]
  rcases hmiddle : processThrough middle r with ⟨m | reason, middle'⟩
  · have hm : m.link = r.link := link_of_processThrough (by rw [hmiddle]) htrim
    simp only [processThrough, Stage.process]
    cases hpass : (seen.offer m).1 with
    | false =>
      simp only [Bool.false_eq_true, if_false, linksOf_drop, List.append_nil]
      refine ⟨⟨middle', _, back, rfl, ?_⟩, ?_⟩
      · intro link hlink
        exact (seen.mem_links_offer m link).mpr (Or.inl (hseen link hlink))
      · intro link hlink
        cases hlink
    | true =>
      simp only [if_true]
      rcases hback : processThrough back m with ⟨k | reason, back'⟩
      · have hk : k.link = m.link := link_of_processThrough (by rw [hback]) (by rw [hm, htrim])
        refine ⟨⟨middle', _, back', rfl, ?_⟩, ?_⟩
        · intro link hlink
          rw [seen.mem_links_offer]
          rcases List.mem_append.mp hlink with hold | hnew
          · exact Or.inl (hseen link hold)
          · obtain ⟨rfl, hne⟩ := mem_linksOf_keep.mp hnew
            exact Or.inr ⟨hk, hne⟩
        · intro link hnew
          obtain ⟨rfl, hne⟩ := mem_linksOf_keep.mp hnew
          refine ⟨fun hold => ?_, hk.trans hm⟩
          rcases (seen.offer_fst_eq_true_iff m).mp hpass with hempty | hfresh
          · exact hne (hk.trans hempty)
          · exact hfresh (hk ▸ hseen _ hold)
      · simp only [linksOf_drop, List.append_nil]
        refine ⟨⟨middle', _, back', rfl, ?_⟩, ?_⟩
        · intro link hlink
          exact (seen.mem_links_offer m link).mpr (Or.inl (hseen link hlink))
        · intro link hlink
          cases hlink
  · simp only [linksOf_drop, List.append_nil]
    refine ⟨⟨middle', seen, back, rfl, hseen⟩, ?_⟩
    intro link hlink
    cases hlink

/-- **Any link in front of the cleaning stage**: if the record is kept, its link is a trimmed and a new
one, and it is remembered from then on. -/
theorem Guarding.process (h : Guarding links stages) (r : Record) :
    Guarding (links ++ linksOf (processThrough stages r).1.kept) (processThrough stages r).2 ∧
      ∀ link ∈ linksOf (processThrough stages r).1.kept,
        link ∉ links ∧ Text.Trimmed link.toList := by
  obtain ⟨front, rest, rfl, hrest⟩ := h
  rw [processThrough_append]
  rcases hfront : processThrough front r with ⟨m | reason, front'⟩
  · have htrim : Text.trim m.clean.link = m.clean.link := Text.trim_trim m.link
    obtain ⟨hremembers, hnew⟩ := hrest.process htrim
    simp only [processThrough, Stage.process]
    refine ⟨⟨front', _, rfl, hremembers⟩, ?_⟩
    intro link hlink
    obtain ⟨hfresh, rfl⟩ := hnew link hlink
    refine ⟨hfresh, ?_⟩
    have hchars : m.clean.link.toList = Text.trimChars m.link.toList := String.toList_ofList
    rw [hchars]
    exact Text.trimmed_trimChars _
  · simp only [linksOf_drop, List.append_nil]
    refine ⟨⟨front', rest, rfl, hrest⟩, ?_⟩
    intro link hlink
    cases hlink

namespace Pipeline

/-! ## 3. Runs -/

/-- The records that an answer keeps. -/
def Answer.kept : Answer → List Record
  | .item outcome => outcome.kept
  | .batch kept _ => kept
  | .reset => []

/-- A pipeline that has let out these links: they are remembered behind a cleaning stage, differ from
each other, and are trimmed. -/
structure Guarded (p : Pipeline) (links : List String) : Prop where
  guarding : Guarding links p.stages
  distinct : links.Nodup
  trimmed : ∀ link ∈ links, Text.Trimmed link.toList

namespace Guarded

variable {p : Pipeline}

/-- **The step.** -/
theorem processItem (h : p.Guarded links) (r : Record) :
    (p.processItem r).2.Guarded (links ++ linksOf (p.processItem r).1.kept) := by
  obtain ⟨hguarding, hnew⟩ := h.guarding.process r
  refine ⟨hguarding, ?_, ?_⟩
  · refine List.nodup_append.mpr ⟨h.distinct, ?_, ?_⟩
    · cases (p.processItem r).1 with
      | keep k => exact (List.pairwise_singleton _ k.link).filter _
      | drop reason => exact List.nodup_nil
    · rintro link hold _ hlink rfl
      exact (hnew link hlink).1 hold
  · intro link hlink
    rcases List.mem_append.mp hlink with hold | hlink
    · exact h.trimmed link hold
    · exact (hnew link hlink).2

/-- A batch, record by record. -/
theorem processBatch (h : p.Guarded links) (rs : List Record) :
    (p.processBatch rs).pipeline.Guarded (links ++ linksOf (p.processBatch rs).kept) := by
  induction rs generalizing p links with
  | nil =>
    rw [show linksOf (p.processBatch []).kept = [] from rfl, List.append_nil]
    exact h
  | cons r rs ih =>
    have hrest := ih (h.processItem r)
    rw [List.append_assoc, ← linksOf_append] at hrest
    exact hrest

/-- One use, unless it is a reset. -/
theorem after (h : p.Guarded links) {use : Use} (hgo : use ≠ .reset) :
    (p.after use).Guarded (links ++ linksOf (p.answer use).kept) := by
  cases use with
  | item r => exact h.processItem r
  | batch rs => exact h.processBatch rs
  | reset => exact absurd rfl hgo

/-- **The run.** -/
theorem answers (h : p.Guarded links) {uses : List Use} (hgo : Use.reset ∉ uses) :
    (p.afterAll uses).Guarded (links ++ linksOf ((p.answers uses).flatMap Answer.kept)) := by
  induction uses generalizing p links with
  | nil =>
    rw [show linksOf ((p.answers []).flatMap Answer.kept) = [] from rfl, List.append_nil]
    exact h
  | cons use uses ih =>
    obtain ⟨hfirst, hothers⟩ := not_or.mp (mt List.mem_cons.mpr hgo)
    have hrest := ih (h.after (Ne.symm hfirst)) hothers
    rw [List.append_assoc, ← linksOf_append] at hrest
    exact hrest

end Guarded

/-! ## 4. Resets -/

/-- The kind of a stage stays what it is. -/
theorem fresh_process (s : Stage) (r : Record) : (s.process r).2.fresh = s.fresh := by
  cases s <;> rfl

/-- Whatever becomes of a record, the stages stay of the same kinds. -/
theorem map_fresh_processThrough (stages : List Stage) (r : Record) :
    (processThrough stages r).2.map Stage.fresh = stages.map Stage.fresh := by
  induction stages generalizing r with
  | nil => rfl
  | cons s stages ih =>
    have hkind := fresh_process s r
    rw [processThrough]
    rcases hs : s.process r with ⟨m | reason, s'⟩
    · rw [hs] at hkind
      simp only [List.map_cons, hkind, ih]
    · rw [hs] at hkind
      simp only [List.map_cons, hkind]

theorem reset_reset (p : Pipeline) : p.reset.reset = p.reset := by
  have hkind : ∀ s : Stage, s.fresh.fresh = s.fresh := by
    intro s
    cases s <;> rfl
  simp only [reset, List.map_map, Function.comp_def, hkind]

theorem reset_processItem (p : Pipeline) (r : Record) : (p.processItem r).2.reset = p.reset := by
  simp only [processItem, reset, map_fresh_processThrough]

theorem reset_processBatch (p : Pipeline) (rs : List Record) :
    (p.processBatch rs).pipeline.reset = p.reset := by
  induction rs generalizing p with
  | nil => rfl
  | cons r rs ih => exact (ih _).trans (p.reset_processItem r)

/-- **A reset undoes all uses.** -/
theorem reset_afterAll (p : Pipeline) (uses : List Use) : (p.afterAll uses).reset = p.reset := by
  induction uses generalizing p with
  | nil => rfl
  | cons use uses ih =>
    refine (ih (p.after use)).trans ?_
    cases use with
    | item r => exact p.reset_processItem r
    | batch rs => exact p.reset_processBatch rs
    | reset => exact p.reset_reset

/-! ## 5. Distinct links -/

/-- Some cleaning stage stands before some dedup stage. -/
def CleansBeforeDedup (stages : List Stage) : Prop :=
  ∃ front middle seen back, stages = front ++ .cleaning :: (middle ++ .dedup seen :: back)

/-- A pipeline that remembers nothing has let out no link. -/
theorem guarded_fresh (h : CleansBeforeDedup stages) : (fresh stages).Guarded [] := by
  obtain ⟨front, middle, seen, back, rfl⟩ := h
  refine ⟨⟨front.map Stage.fresh, _, List.map_append, middle.map Stage.fresh, .empty,
    back.map Stage.fresh, List.map_append, ?_⟩, List.nodup_nil, ?_⟩
  · intro link hlink
    cases hlink
  · intro link hlink
    cases hlink

/-- **Kept records have links of their own.**  Let some cleaning stage stand before some dedup stage,
among any others, each of which may have a scorer or a categorizer of its own.  Between one reset and the
next one, or from the beginning on, the nonempty links of all records that are kept, as they come out,
differ from each other, and no link that comes out has blanks at its ends. -/
theorem kept_links_distinct (h : CleansBeforeDedup stages) (earlier : List Use)
    {uses : List Use} (hgo : Use.reset ∉ uses) :
    let kept := (((fresh stages).afterAll earlier).reset.answers uses).flatMap Answer.kept
    (linksOf kept).Nodup ∧ ∀ k ∈ kept, Text.Trimmed k.link.toList := by
  intro kept
  have hreset : ((fresh stages).afterAll earlier).reset = fresh stages := by
    rw [reset_afterAll, fresh, reset_reset]
  have hguarded := (guarded_fresh h).answers hgo
  rw [← hreset, List.nil_append] at hguarded
  refine ⟨hguarded.distinct, ?_⟩
  intro k hk
  by_cases hempty : k.link = ""
  · rw [hempty]
    exact Text.trimChars_eq_self_iff.mp rfl
  · refine hguarded.trimmed k.link (List.mem_filter.mpr ⟨List.mem_map_of_mem hk, ?_⟩)
    exact decide_eq_true hempty

/-- Links that differ in blanks only are the same link behind the second stage, and are remembered
behind the fourth one, between two stages that categorize differently; a link that was seen before the
reset may come again. -/
theorem kept_links_distinct_blanks :
    let guru : Stage := .categorizing cairoJudges.categorizer
    let toptal : Stage :=
      .categorizing { cairoJudges.categorizer with freelancePlatforms := ["toptal"] }
    let stages : List Stage := [.dedup .empty, .cleaning, guru, .dedup .empty, toptal, .cleaning]
    let earlier : List Use := [.item { title := "Artist", link := "a" }]
    let uses : List Use :=
      [.item { title := "Artist", link := " a" },
        .batch [{ title := "Cook", link := "a\n" }, { title := "Guide" }, { title := "Guide" },
          { title := "Cook", link := "b" }]]
    let kept := (((fresh stages).afterAll earlier).reset.answers uses).flatMap Answer.kept
    CleansBeforeDedup stages ∧ Use.reset ∉ uses ∧
      ((linksOf kept).Nodup ∧ ∀ k ∈ kept, Text.Trimmed k.link.toList) ∧
      kept.map Record.link = ["a", "", "", "b"] := by
  intro guru toptal stages earlier uses kept
  have hstages : CleansBeforeDedup stages :=
    ⟨[.dedup .empty], [guru], .empty, [toptal, .cleaning], rfl⟩
  have hgo : Use.reset ∉ uses := by decide +kernel
  exact ⟨hstages, hgo, kept_links_distinct hstages earlier hgo, by decide +kernel⟩

end Pipeline

end Shortlist
