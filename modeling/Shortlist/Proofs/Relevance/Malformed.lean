import Shortlist.Proofs.Pattern.Malformed
import Shortlist.Proofs.Relevance.BuiltIn

/-!
# Profiles and category tables with malformed patterns

A malformed pattern should keep a scorer or a categorizer from being built, and the error should name
its table.  So it is unless the patterns from the first malformed one on mend each other, as the patterns
of a table are joined before any of them is looked at.  Patterns that are all contained do not mend each
other, which can be seen on each of them alone.

A pattern with flags counts as malformed here without being it, so the tables are those whose joined text
has no flags.
-/

namespace Shortlist

open Pattern (CharacterData Table Valid Flagless Mended BeyondRepair Contained WithinLimits
  groupNames malformedOn)

/-- The tables of a profile and whether they are for whole words. -/
def Profile.tables (p : Profile) : List (List String × Bool) :=
  [(p.titlePatterns, false), (p.broadKeywords, true), (p.secondaryKeywords, false),
    (p.negativePatterns, false), (p.toolKeywords, true), (p.narrowKeywords, true),
    (p.hiringIndicators, true), (p.broadKeywords ++ p.freelanceExtraKeywords, true)]

/-- The category tables that hold patterns, none of them for whole words. -/
def CategoryTables.patternTables (t : CategoryTables) : List (List String × Bool) :=
  [t.remote, t.freelance, t.hybrid, t.fulltime, t.egypt, t.uae, t.europe].map fun table =>
    (table, false)

section

variable [CharacterData]

/-- A table that does not compile is rejected under its name. -/
theorem Pattern.Table.compile_eq_error {name : String} {patterns : List String} {wholeWords : Bool}
    (h : Table.compile? patterns wholeWords = none) :
    Table.compile name patterns wholeWords = .error ⟨name⟩ := by
  rw [Table.compile, h]

/-- **All tables of a scorer compile.** -/
theorem Scorer.Compiles.compile?_ne_none {s : Scorer} {p : Profile} (h : s.Compiles p) :
    ∀ table ∈ p.tables, Table.compile? table.1 table.2 ≠ none := by
  simp only [Profile.tables, List.forall_mem_cons, List.not_mem_nil, false_imp_iff, implies_true,
    and_true]
  rw [h.title, h.broad, h.secondary, h.negative, h.tools, h.narrow, h.hiring, h.freelanceBroad]
  simp

/-- **All tables of a categorizer compile.** -/
theorem Categorizer.Compiles.compile?_ne_none {c : Categorizer} {t : CategoryTables}
    (h : c.Compiles t) : ∀ table ∈ t.patternTables, Table.compile? table.1 table.2 ≠ none := by
  simp only [CategoryTables.patternTables, List.forall_mem_map, List.forall_mem_cons,
    List.not_mem_nil, false_imp_iff, implies_true, and_true]
  rw [h.remote, h.freelance, h.hybrid, h.fulltime, h.egypt, h.uae, h.europe]
  simp

/-- The table is rejected under whatever name it has, and no scorer and no categorizer is built from
tables that it is one of. -/
structure Rejected (patterns : List String) (wholeWords : Bool) : Prop where
  named : ∀ name, Table.compile name patterns wholeWords = .error ⟨name⟩
  profile : ∀ p : Profile, (patterns, wholeWords) ∈ p.tables → ∃ e, Scorer.ofProfile p = .error e
  categories : ∀ t : CategoryTables, (patterns, wholeWords) ∈ t.patternTables →
    ∃ e, Categorizer.ofTables t = .error e

/-- **A table that does not compile is rejected.** -/
theorem Rejected.of_compile? {patterns : List String} {wholeWords : Bool}
    (h : Table.compile? patterns wholeWords = none) : Rejected patterns wholeWords where
  named _ := Table.compile_eq_error h
  profile p htable := by
    cases hs : Scorer.ofProfile p with
    | error e => exact ⟨e, rfl⟩
    | ok s => exact absurd h ((Scorer.compiles_of_ofProfile hs).compile?_ne_none _ htable)
  categories t htable := by
    cases hc : Categorizer.ofTables t with
    | error e => exact ⟨e, rfl⟩
    | ok c => exact absurd h ((Categorizer.compiles_of_ofTables hc).compile?_ne_none _ htable)

/-- **A malformed pattern is rejected unless it is mended.**  Take a table without flags that has a
malformed pattern; the first such pattern is malformed without regard to flags.  The table is rejected
unless the patterns from there on are one valid pattern together.  So it is rejected if all its patterns
are contained, and if the first malformed one is beyond repair.  If the patterns are mended, the first
malformed one is not beyond repair and one of them is not contained, and the table compiles unless a name
is used twice, limits of size aside. -/
theorem malformed_rejected_unless_mended {patterns : List String} {wholeWords : Bool}
    (hmalformed : ∃ p ∈ patterns, ¬ Valid p)
    (hflagless : Flagless (Table.sourceText patterns wholeWords)) :
    (∃ p ∈ (malformedOn patterns).head?, Flagless p ∧ ¬ Valid p) ∧
    (¬ Mended patterns wholeWords → Rejected patterns wholeWords) ∧
    ((∀ p ∈ patterns, Contained p) → Rejected patterns wholeWords) ∧
    ((∀ p ∈ (malformedOn patterns).head?, BeyondRepair p) → Rejected patterns wholeWords) ∧
    (Mended patterns wholeWords →
      (∀ p ∈ (malformedOn patterns).head?, ¬ BeyondRepair p) ∧
      (∃ q ∈ malformedOn patterns, ¬ Contained q) ∧
      (WithinLimits (Table.sourceText patterns wholeWords) →
        (groupNames (Table.sourceText patterns wholeWords)).Nodup →
          ∃ t, Table.compile? patterns wholeWords = some t)) := by
  have hrejected : ¬ Mended patterns wholeWords → Rejected patterns wholeWords := fun hnot =>
    .of_compile? (Pattern.compile?_eq_none_of_not_mended hmalformed hnot)
  obtain ⟨-, p, after, -, -, -, hfrom⟩ := Pattern.exists_first_malformed hmalformed
  have hfirst : p ∈ (malformedOn patterns).head? := by rw [hfrom]; rfl
  refine ⟨⟨p, hfirst, hflagless.first_malformed hmalformed p hfirst⟩, hrejected, ?_, ?_, ?_⟩
  · intro hcontained
    refine hrejected fun hmended => ?_
    obtain ⟨-, q, hq, hreaches⟩ := hmended.not_contained hmalformed
    exact hreaches (hcontained q ((List.dropWhile_sublist _).mem hq))
  · intro hbeyond
    refine hrejected fun hmended => ?_
    exact (hmended.not_contained hmalformed).1 p hfirst (hbeyond p hfirst)
  · intro hmended
    obtain ⟨hrepair, hreaches⟩ := hmended.not_contained hmalformed
    exact ⟨hrepair, hreaches, fun hlimits hnames =>
      hmended.exists_compile? hmalformed hnames hlimits⟩

end

/-- A group that is left open between two valid patterns.  All three patterns are contained, so nothing
closes the group. -/
theorem malformed_rejected_unless_mended_unclosed :
    (∀ p ∈ ["a|b", "(unclosed", "c"], Contained p) ∧
      Table.compile "tool" ["a|b", "(unclosed", "c"] true = .error ⟨"tool"⟩ ∧
      ∃ e, Scorer.ofProfile { toolKeywords := ["a|b", "(unclosed", "c"] } = .error e := by
  have hmalformed : ∃ p ∈ ["a|b", "(unclosed", "c"], ¬ Valid p := ⟨"(unclosed", by decide, by decide⟩
  have hflagless : Flagless (Table.sourceText ["a|b", "(unclosed", "c"] true) :=
    Pattern.not_flagged_of_tokens (by decide)
  have hcontained : ∀ p ∈ ["a|b", "(unclosed", "c"], Contained p := by decide
  obtain ⟨-, -, hall, -⟩ := malformed_rejected_unless_mended hmalformed hflagless
  have hrejected := hall hcontained
  exact ⟨hcontained, hrejected.named "tool", hrejected.profile _ (by simp [Profile.tables])⟩

/-- Neither of two patterns is valid, but one closes the group that the other opens. -/
theorem split_group_accepted :
    ¬ Valid "(Blender" ∧ ¬ Valid "Maya)" ∧
      (∃ t, Table.compile "tool" ["(Blender", "Maya)"] true = .ok t) ∧
      ∃ s, Scorer.ofProfile { toolKeywords := ["(Blender", "Maya)"] } = .ok s := by
  have hroomy : Profile.Roomy { toolKeywords := ["(Blender", "Maya)"] } := by
    constructor <;> decide
  exact ⟨by decide, by decide, Table.exists_compile_of_isRoomy "tool" hroomy.tools,
    hroomy.exists_ofProfile⟩

end Shortlist
