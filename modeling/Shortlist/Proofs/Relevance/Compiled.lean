import Shortlist.Category.Categorizer
import Shortlist.Relevance.Scorer

/-!
# Compiled profiles and category tables

A profile compiles when each of its tables does, and then the scorer holds these tables; the same for
category tables.  Facts about tables carry over to scorers and categorizers through this file only, and
nothing else looks into the compilation.
-/

namespace Shortlist

open Pattern (CharacterData InvalidPattern Table)

variable [CharacterData]

omit [CharacterData] in
/-- Two computations one behind the other succeed only if both do. -/
theorem eq_ok_of_bind {ε α β : Type} {x : Except ε α} {f : α → Except ε β} {b : β}
    (h : x >>= f = .ok b) : ∃ a, x = .ok a ∧ f a = .ok b := by
  cases x with
  | error e => cases h
  | ok a => exact ⟨a, rfl, h⟩

/-- A table compiles under a name when it does without one. -/
theorem Pattern.Table.compile_eq_ok {name : String} {patterns : List String} {wholeWords : Bool}
    {t : Table} :
    Table.compile name patterns wholeWords = .ok t ↔ Table.compile? patterns wholeWords = some t := by
  unfold Table.compile
  cases Table.compile? patterns wholeWords <;> simp

/-- The scorer knows the places of the profile, in lower case, with their points. -/
def Scorer.HasPlaces (s : Scorer) (p : Profile) : Prop :=
  s.locationScores = p.locationScores.map fun place => (Text.lower place.1, place.2)

/-- The scorer holds the tables of the profile. -/
structure Scorer.Compiles (s : Scorer) (p : Profile) : Prop where
  title : Table.compile? p.titlePatterns false = some s.title
  broad : Table.compile? p.broadKeywords true = some s.broad
  secondary : Table.compile? p.secondaryKeywords false = some s.secondary
  negative : Table.compile? p.negativePatterns false = some s.negative
  tools : Table.compile? p.toolKeywords true = some s.tools
  narrow : Table.compile? p.narrowKeywords true = some s.narrow
  hiring : Table.compile? p.hiringIndicators true = some s.hiring
  freelanceBroad :
    Table.compile? (p.broadKeywords ++ p.freelanceExtraKeywords) true = some s.freelanceBroad
  places : s.HasPlaces p

/-- **The scorer of a profile** holds its tables. -/
theorem Scorer.compiles_of_ofProfile {p : Profile} {s : Scorer} (h : ofProfile p = .ok s) :
    s.Compiles p := by
  obtain ⟨title, htitle, h⟩ := eq_ok_of_bind h
  obtain ⟨broad, hbroad, h⟩ := eq_ok_of_bind h
  obtain ⟨secondary, hsecondary, h⟩ := eq_ok_of_bind h
  obtain ⟨negative, hnegative, h⟩ := eq_ok_of_bind h
  obtain ⟨tools, htools, h⟩ := eq_ok_of_bind h
  obtain ⟨narrow, hnarrow, h⟩ := eq_ok_of_bind h
  obtain ⟨hiring, hhiring, h⟩ := eq_ok_of_bind h
  obtain ⟨freelance, hfreelance, h⟩ := eq_ok_of_bind h
  cases h
  exact
    { title := Table.compile_eq_ok.mp htitle
      broad := Table.compile_eq_ok.mp hbroad
      secondary := Table.compile_eq_ok.mp hsecondary
      negative := Table.compile_eq_ok.mp hnegative
      tools := Table.compile_eq_ok.mp htools
      narrow := Table.compile_eq_ok.mp hnarrow
      hiring := Table.compile_eq_ok.mp hhiring
      freelanceBroad := Table.compile_eq_ok.mp hfreelance
      places := rfl }

/-- The categorizer holds the category tables. -/
structure Categorizer.Compiles (c : Categorizer) (t : CategoryTables) : Prop where
  remote : Table.compile? t.remote false = some c.remote
  freelance : Table.compile? t.freelance false = some c.freelance
  hybrid : Table.compile? t.hybrid false = some c.hybrid
  fulltime : Table.compile? t.fulltime false = some c.fulltime
  egypt : Table.compile? t.egypt false = some c.egypt
  uae : Table.compile? t.uae false = some c.uae
  europe : Table.compile? t.europe false = some c.europe
  platforms : c.freelancePlatforms = t.freelancePlatforms.map Text.lower

/-- **The categorizer of category tables** holds them. -/
theorem Categorizer.compiles_of_ofTables {t : CategoryTables} {c : Categorizer}
    (h : ofTables t = .ok c) : c.Compiles t := by
  obtain ⟨remote, hremote, h⟩ := eq_ok_of_bind h
  obtain ⟨freelance, hfreelance, h⟩ := eq_ok_of_bind h
  obtain ⟨hybrid, hhybrid, h⟩ := eq_ok_of_bind h
  obtain ⟨fulltime, hfulltime, h⟩ := eq_ok_of_bind h
  obtain ⟨egypt, hegypt, h⟩ := eq_ok_of_bind h
  obtain ⟨uae, huae, h⟩ := eq_ok_of_bind h
  obtain ⟨europe, heurope, h⟩ := eq_ok_of_bind h
  cases h
  exact
    { remote := Table.compile_eq_ok.mp hremote
      freelance := Table.compile_eq_ok.mp hfreelance
      hybrid := Table.compile_eq_ok.mp hhybrid
      fulltime := Table.compile_eq_ok.mp hfulltime
      egypt := Table.compile_eq_ok.mp hegypt
      uae := Table.compile_eq_ok.mp huae
      europe := Table.compile_eq_ok.mp heurope
      platforms := rfl }

end Shortlist
