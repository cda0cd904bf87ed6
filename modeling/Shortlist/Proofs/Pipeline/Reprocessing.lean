import Mathlib.Data.List.Basic
import Shortlist.Proofs.Pipeline.Reference
import Shortlist.Proofs.Record.Cleaning

/-!
# Processing what was kept

What a run of the usual pipeline keeps, another run keeps again, record by record and field by field.

A single record that was kept is *settled*: cleaning, scoring and categorizing it once more change
nothing, because none of the three looks at a field that one of them fills, and the names of the
categories have no blanks at their ends.  As to duplicates, a kept record has a link of its own among all
that came before it, and hence among those that were kept (`kept_links`).
-/

namespace Shortlist

/-! ## 1. Category fields -/

theorem JobType.trim_name (t : JobType) : Text.trim t.name = t.name := by
  cases t <;> decide +kernel

theorem JobType.trim_icon (t : JobType) : Text.trim t.icon = t.icon := by
  cases t <;> decide +kernel

theorem Region.trim_name (r : Region) : Text.trim r.name = r.name := by
  cases r <;> decide +kernel

theorem Region.trim_icon (r : Region) : Text.trim r.icon = r.icon := by
  cases r <;> decide +kernel

/-- Categorizing leaves a clean record clean. -/
theorem Categorizer.clean_categorize (c : Categorizer) {r : Record} (h : r.clean = r)
    (score : Option UInt8) :
    (c.categorize { r with relevanceScore := score }).clean =
      c.categorize { r with relevanceScore := score } :=
  Record.clean_filled h score _ (JobType.trim_name _) (JobType.trim_icon _) (Region.trim_name _)
    (Region.trim_icon _)

namespace Pipeline

/-! ## 2. Settled records -/

/-- No stage has anything more to do to this record, and none drops it. -/
structure Settled (j : Judges) (k : Record) : Prop where
  clean : k.clean = k
  not_vetoed : j.scorer.isVetoed k.title = false
  relevant : j.scorer.scoreRecord k ≠ 0
  scored : k.relevanceScore = some (UInt8.ofNat (j.scorer.scoreRecord k))
  categorized : j.categorizer.categorize k = k

/-- The outcome of a record that is kept. -/
theorem expected_keep_iff {j : Judges} {earlier : List Record} {r k : Record} :
    expected j earlier r = .keep k ↔
      (r.clean.link = "" ∨ ∀ e ∈ earlier, e.clean.link ≠ r.clean.link) ∧
        j.scorer.isVetoed r.clean.title = false ∧ j.scorer.scoreRecord r.clean ≠ 0 ∧
        k = j.categorizer.categorize
          { r.clean with relevanceScore := some (UInt8.ofNat (j.scorer.scoreRecord r.clean)) } := by
  unfold expected
  have hlink : ¬ (r.clean.link ≠ "" ∧ ∃ e ∈ earlier, e.clean.link = r.clean.link) ↔
      r.clean.link = "" ∨ ∀ e ∈ earlier, e.clean.link ≠ r.clean.link := by
    rw [not_and_or, not_ne_iff]
    simp only [not_exists, not_and, ne_eq]
  rw [← hlink]
  split_ifs with hdup hveto hzero
  · exact iff_of_false not_false fun h => h.1 hdup
  · refine iff_of_false not_false fun h => ?_
    rw [hveto] at h
    exact Bool.noConfusion h.2.1
  · exact iff_of_false not_false fun h => h.2.2.1 hzero
  · constructor
    · intro h
      exact ⟨hdup, eq_false_of_ne_true hveto, hzero, (Outcome.keep.inj h).symm⟩
    · rintro ⟨-, -, -, rfl⟩
      rfl

/-- **What is kept is settled**: no stage reads a field that a stage fills. -/
theorem settled_of_expected {j : Judges} {earlier : List Record} {r k : Record}
    (h : expected j earlier r = .keep k) : Settled j k := by
  obtain ⟨-, hveto, hscore, rfl⟩ := expected_keep_iff.mp h
  exact
    { clean := j.categorizer.clean_categorize r.clean_clean _
      not_vetoed := hveto
      relevant := hscore
      scored := rfl
      categorized := rfl }

/-- A kept record has the link that its original had after cleaning, and no earlier record had it. -/
theorem link_of_expected {j : Judges} {earlier : List Record} {r k : Record}
    (h : expected j earlier r = .keep k) :
    k.link = r.clean.link ∧ (k.link = "" ∨ ∀ e ∈ earlier, e.clean.link ≠ k.link) := by
  obtain ⟨hlink, -, -, rfl⟩ := expected_keep_iff.mp h
  exact ⟨rfl, hlink⟩

/-- A settled record is kept as it is, unless its link is a known one. -/
theorem Settled.expected {j : Judges} {earlier : List Record} {k : Record} (h : Settled j k)
    (hlink : k.link = "" ∨ ∀ e ∈ earlier, e.clean.link ≠ k.link) :
    expected j earlier k = .keep k := by
  have hscored : ({ k with
      relevanceScore := some (UInt8.ofNat (j.scorer.scoreRecord k)) } : Record) = k := by
    rw [← h.scored]
  rw [expected_keep_iff, h.clean, hscored, h.categorized]
  exact ⟨hlink, h.not_vetoed, h.relevant, rfl⟩

/-! ## 3. Batches -/

/-- The kept records of a batch behind others have links of their own, empty ones apart: none is that
of a record before the batch, and no two are the same. -/
theorem kept_links {j : Judges} :
    ∀ (rs earlier : List Record),
      (∀ k ∈ (expectedAll j earlier rs).flatMap Outcome.kept,
        k.link = "" ∨ ∀ e ∈ earlier, e.clean.link ≠ k.link) ∧
      ((expectedAll j earlier rs).flatMap Outcome.kept).Pairwise fun a b =>
        b.link = "" ∨ a.link ≠ b.link
  | [], earlier => ⟨fun _ hk => absurd hk List.not_mem_nil, List.Pairwise.nil⟩
  | r :: rs, earlier => by
    obtain ⟨hfresh, hpairs⟩ := kept_links (j := j) rs (earlier ++ [r])
    have hrest : ∀ k ∈ (expectedAll j (earlier ++ [r]) rs).flatMap Outcome.kept,
        k.link = "" ∨ ((∀ e ∈ earlier, e.clean.link ≠ k.link) ∧ r.clean.link ≠ k.link) := by
      intro k hk
      refine (hfresh k hk).imp_right fun h => ⟨fun e he => h e (List.mem_append_left _ he), ?_⟩
      exact h r (List.mem_append_right _ List.mem_cons_self)
    rw [expectedAll_cons, List.flatMap_cons]
    cases houtcome : Pipeline.expected j earlier r with
    | drop reason =>
      exact ⟨fun k hk => (hrest k hk).imp_right And.left, hpairs⟩
    | keep first =>
      obtain ⟨hlink, hfirst⟩ := link_of_expected houtcome
      constructor
      · intro k hk
        rcases List.mem_cons.mp hk with rfl | hk
        · exact hfirst
        · exact (hrest k hk).imp_right And.left
      · refine List.pairwise_cons.mpr ⟨fun k hk => ?_, hpairs⟩
        rw [hlink]
        exact (hrest k hk).imp_right And.right

/-- What is kept of a batch came from one of its records. -/
theorem exists_of_mem_kept {j : Judges} {rs earlier : List Record} {k : Record}
    (hk : k ∈ (expectedAll j earlier rs).flatMap Outcome.kept) :
    ∃ r ∈ rs, ∃ before, expected j before r = .keep k := by
  obtain ⟨outcome, houtcome, hk⟩ := List.mem_flatMap.mp hk
  obtain ⟨i, hi, rfl⟩ := List.mem_mapIdx.mp houtcome
  refine ⟨rs[i], List.getElem_mem hi, earlier ++ rs.take i, ?_⟩
  cases h : expected j (earlier ++ rs.take i) rs[i] with
  | drop reason =>
    rw [h] at hk
    cases hk
  | keep first =>
    rw [h] at hk
    rw [List.mem_singleton.mp hk]

/-- Every kept record of a batch is settled. -/
theorem kept_settled {j : Judges} (rs earlier : List Record) :
    ∀ k ∈ (expectedAll j earlier rs).flatMap Outcome.kept, Settled j k := by
  intro k hk
  obtain ⟨r, -, before, h⟩ := exists_of_mem_kept hk
  exact settled_of_expected h

/-- **Settled records with links of their own are all kept as they are.** -/
theorem expectedAll_of_settled {j : Judges} :
    ∀ {ks earlier : List Record}, (∀ k ∈ ks, Settled j k) →
      (∀ k ∈ ks, k.link = "" ∨ ∀ e ∈ earlier, e.clean.link ≠ k.link) →
      ks.Pairwise (fun a b => b.link = "" ∨ a.link ≠ b.link) →
      expectedAll j earlier ks = ks.map .keep
  | [], _, _, _, _ => rfl
  | k :: ks, earlier, hsettled, hfresh, hpairs => by
    obtain ⟨hk, hks⟩ := List.forall_mem_cons.mp hsettled
    obtain ⟨hlink, hlinks⟩ := List.forall_mem_cons.mp hfresh
    obtain ⟨hfirst, hrest⟩ := List.pairwise_cons.mp hpairs
    rw [expectedAll_cons, List.map_cons, hk.expected hlink]
    congr 1
    refine expectedAll_of_settled hks (fun other hother => ?_) hrest
    rcases hlinks other hother with hempty | hold
    · exact Or.inl hempty
    · refine (hfirst other hother).imp_right fun hne e he => ?_
      rcases List.mem_append.mp he with he | he
      · exact hold e he
      · rw [List.mem_singleton.mp he, hk.clean]
        exact hne

/-- The counts of a batch of which everything was kept. -/
theorem tally_map_keep (ks : List Record) :
    tally (ks.map .keep) = { seen := ks.length, kept := ks.length } := by
  induction ks with
  | nil => rfl
  | cons k ks ih => rw [List.map_cons, tally_cons, ih]; rfl

/-- The pipeline keeps all these records as they are. -/
def KeepsAll (p : Pipeline) (ks : List Record) : Prop :=
  (p.processBatch ks).kept = ks ∧
    (p.processBatch ks).stats = { seen := ks.length, kept := ks.length }

/-- A pipeline that remembers nothing keeps settled records with links of their own. -/
theorem Remembers.keepsAll {p : Pipeline} {j : Judges} (h : p.Remembers j []) {ks : List Record}
    (hsettled : ∀ k ∈ ks, Settled j k)
    (hpairs : ks.Pairwise fun a b => b.link = "" ∨ a.link ≠ b.link) : p.KeepsAll ks := by
  obtain ⟨hkept, hstats, -⟩ := processBatch_remembers ks h
  have hall : expectedAll j [] ks = ks.map .keep :=
    expectedAll_of_settled hsettled (fun _ _ => Or.inr fun _ he => absurd he List.not_mem_nil) hpairs
  rw [hall] at hkept hstats
  rw [tally_map_keep] at hstats
  rw [List.flatMap_map] at hkept
  exact ⟨hkept.trans (List.flatMap_singleton' ks), hstats⟩

/-- **What was kept is kept again.**  When a batch went through a fresh pipeline, then what was kept of
it goes through the same pipeline after a reset, and through another fresh one, without any change and
without any drop. -/
theorem kept_is_kept_again (j : Judges) (rs : List Record) :
    ((standard j).processBatch rs).pipeline.reset.KeepsAll ((standard j).processBatch rs).kept ∧
      (standard j).KeepsAll ((standard j).processBatch rs).kept := by
  obtain ⟨hkept, -, hremembers⟩ := processBatch_remembers rs (standard_remembers j)
  rw [hkept]
  have hsettled := kept_settled (j := j) rs []
  have hpairs := (kept_links (j := j) rs []).2
  exact ⟨hremembers.reset.keepsAll hsettled hpairs, (standard_remembers j).keepsAll hsettled hpairs⟩

end Pipeline

end Shortlist
