import Shortlist.Proofs.Pattern.Room
import Shortlist.Proofs.Relevance.Compiled
import Shortlist.Run

/-!
# The built-in tables can be used

A run compiles the built-in profile and the built-in category tables, and a table that is invalid or too
large would stop it.  None of them is: each is roomy (`Table.isRoomy`), so the usual pipeline is there
in every run.
-/

namespace Shortlist

open Pattern (Table)

/-- A roomy table compiles under any name. -/
theorem Pattern.Table.exists_compile_of_isRoomy (name : String) {patterns : List String}
    {wholeWords : Bool} (h : Table.isRoomy patterns wholeWords = true) :
    ∃ t, Table.compile name patterns wholeWords = .ok t :=
  (Table.exists_compile?_of_isRoomy h).imp fun _ => Table.compile_eq_ok.mpr

/-- All tables of the profile are roomy. -/
structure Profile.Roomy (p : Profile) : Prop where
  title : Table.isRoomy p.titlePatterns false = true
  broad : Table.isRoomy p.broadKeywords true = true
  secondary : Table.isRoomy p.secondaryKeywords false = true
  negative : Table.isRoomy p.negativePatterns false = true
  tools : Table.isRoomy p.toolKeywords true = true
  narrow : Table.isRoomy p.narrowKeywords true = true
  hiring : Table.isRoomy p.hiringIndicators true = true
  freelanceBroad : Table.isRoomy (p.broadKeywords ++ p.freelanceExtraKeywords) true = true

/-- A profile with roomy tables compiles. -/
theorem Profile.Roomy.exists_ofProfile {p : Profile} (h : p.Roomy) :
    ∃ s, Scorer.ofProfile p = .ok s := by
  obtain ⟨title, htitle⟩ := Table.exists_compile_of_isRoomy "title" h.title
  obtain ⟨broad, hbroad⟩ := Table.exists_compile_of_isRoomy "broad keyword" h.broad
  obtain ⟨secondary, hsecondary⟩ := Table.exists_compile_of_isRoomy "secondary language" h.secondary
  obtain ⟨negative, hnegative⟩ := Table.exists_compile_of_isRoomy "negative" h.negative
  obtain ⟨tools, htools⟩ := Table.exists_compile_of_isRoomy "tool" h.tools
  obtain ⟨narrow, hnarrow⟩ := Table.exists_compile_of_isRoomy "narrow keyword" h.narrow
  obtain ⟨hiring, hhiring⟩ := Table.exists_compile_of_isRoomy "hiring indicator" h.hiring
  obtain ⟨freelance, hfreelance⟩ := Table.exists_compile_of_isRoomy "freelance keyword" h.freelanceBroad
  rw [Scorer.ofProfile, htitle, hbroad, hsecondary, hnegative, htools, hnarrow, hhiring, hfreelance]
  exact ⟨_, rfl⟩

/-- All category tables are roomy. -/
structure CategoryTables.Roomy (t : CategoryTables) : Prop where
  remote : Table.isRoomy t.remote false = true
  freelance : Table.isRoomy t.freelance false = true
  hybrid : Table.isRoomy t.hybrid false = true
  fulltime : Table.isRoomy t.fulltime false = true
  egypt : Table.isRoomy t.egypt false = true
  uae : Table.isRoomy t.uae false = true
  europe : Table.isRoomy t.europe false = true

/-- Roomy category tables compile. -/
theorem CategoryTables.Roomy.exists_ofTables {t : CategoryTables} (h : t.Roomy) :
    ∃ c, Categorizer.ofTables t = .ok c := by
  obtain ⟨remote, hremote⟩ := Table.exists_compile_of_isRoomy "remote" h.remote
  obtain ⟨freelance, hfreelance⟩ := Table.exists_compile_of_isRoomy "freelance" h.freelance
  obtain ⟨hybrid, hhybrid⟩ := Table.exists_compile_of_isRoomy "hybrid" h.hybrid
  obtain ⟨fulltime, hfulltime⟩ := Table.exists_compile_of_isRoomy "fulltime" h.fulltime
  obtain ⟨egypt, hegypt⟩ := Table.exists_compile_of_isRoomy "egypt" h.egypt
  obtain ⟨uae, huae⟩ := Table.exists_compile_of_isRoomy "uae" h.uae
  obtain ⟨europe, heurope⟩ := Table.exists_compile_of_isRoomy "europe" h.europe
  rw [Categorizer.ofTables, hremote, hfreelance, hhybrid, hfulltime, hegypt, huae, heurope]
  exact ⟨_, rfl⟩

theorem Profile.standard_roomy : Profile.standard.Roomy where
  title := by decide +kernel
  broad := by decide +kernel
  secondary := by decide +kernel
  negative := by decide +kernel
  tools := by decide +kernel
  narrow := by decide +kernel
  hiring := by decide +kernel
  freelanceBroad := by decide +kernel

theorem CategoryTables.standard_roomy : CategoryTables.standard.Roomy where
  remote := by decide +kernel
  freelance := by decide +kernel
  hybrid := by decide +kernel
  fulltime := by decide +kernel
  egypt := by decide +kernel
  uae := by decide +kernel
  europe := by decide +kernel

/-- **The usual pipeline is there in every run**, with the scorer and the categorizer of the built-in tables:
none of these is invalid or too large. -/
theorem exists_usualPipeline : ∃ j : Judges, Scorer.ofProfile Profile.standard = .ok j.scorer ∧
    Categorizer.ofTables CategoryTables.standard = .ok j.categorizer ∧
      usualPipeline = .ok (Pipeline.standard j) := by
  obtain ⟨scorer, hscorer⟩ := Profile.standard_roomy.exists_ofProfile
  obtain ⟨categorizer, hcategorizer⟩ := CategoryTables.standard_roomy.exists_ofTables
  refine ⟨⟨scorer, categorizer⟩, hscorer, hcategorizer, ?_⟩
  rw [usualPipeline, hscorer, hcategorizer]
  rfl

end Shortlist
