import Shortlist.Category.Categorizer
import Shortlist.Pipeline.Dedup
import Shortlist.Record.Cleaning
import Shortlist.Relevance.Scorer

/-!
# The pipeline

A record runs through a list of stages, and each of them changes it or drops it.  A stage that scores
or categorizes has a scorer or a categorizer of its own.  The only stage with a memory is the one that
removes duplicates: it remembers the links of all records that reached it, also of those that a later
stage drops.
-/

namespace Shortlist

/-! ## 1. Stages -/

/-- Why a record was dropped. -/
inductive DropReason where
  /-- Its link was seen before. -/
  | duplicate
  /-- Its title is ruled out. -/
  | vetoed
  /-- Its score is 0. -/
  | irrelevant
deriving Repr, DecidableEq

namespace DropReason

/-- All reasons. -/
def all : List DropReason := [.duplicate, .vetoed, .irrelevant]

/-- The name of a reason. -/
def name : DropReason → String
  | .duplicate => "duplicate"
  | .vetoed => "vetoed"
  | .irrelevant => "irrelevant"

end DropReason

/-- What became of a record. -/
inductive Outcome where
  | keep (r : Record)
  | drop (reason : DropReason)
deriving Repr, DecidableEq

/-- A stage of a pipeline with what it works with and what it remembers. -/
inductive Stage where
  | cleaning
  | dedup (seen : SeenLinks)
  | scoring (scorer : Scorer)
  | categorizing (categorizer : Categorizer)
deriving Repr, DecidableEq

/-- A scorer and a categorizer. -/
structure Judges where
  scorer : Scorer
  categorizer : Categorizer
deriving Repr, DecidableEq

namespace Stage

/-- The name of a stage. -/
def name : Stage → String
  | .cleaning => "cleaning"
  | .dedup _ => "dedup"
  | .scoring _ => "scoring"
  | .categorizing _ => "categorizing"

/-- A fresh stage with a name. -/
def ofName? (j : Judges) (name : String) : Option Stage :=
  match name with
  | "cleaning" => some .cleaning
  | "dedup" => some (.dedup SeenLinks.empty)
  | "scoring" => some (.scoring j.scorer)
  | "categorizing" => some (.categorizing j.categorizer)
  | _ => none

/-- The stage without what it remembers. -/
def fresh : Stage → Stage
  | .dedup _ => .dedup SeenLinks.empty
  | s => s

end Stage

/-! ## 2. The work of a stage -/

/-- Scores a record and drops it when it is ruled out or scores 0. -/
def Scorer.judge (s : Scorer) (r : Record) : Outcome :=
  if s.isVetoed r.title then .drop .vetoed
  else
    let score := s.scoreRecord r
    if score == 0 then .drop .irrelevant
    else .keep { r with relevanceScore := some (UInt8.ofNat score) }

/-- Runs a record through one stage. -/
def Stage.process (r : Record) : Stage → Outcome × Stage
  | .cleaning => (.keep r.clean, .cleaning)
  | .dedup seen =>
    let (passes, seen) := seen.offer r
    (if passes then .keep r else .drop .duplicate, .dedup seen)
  | .scoring scorer => (scorer.judge r, .scoring scorer)
  | .categorizing categorizer => (.keep (categorizer.categorize r), .categorizing categorizer)

/-- Runs a record through stages one after another until one of them drops it. -/
def processThrough : List Stage → Record → Outcome × List Stage
  | [], r => (.keep r, [])
  | s :: rest, r =>
    match s.process r with
    | (.keep r, s) =>
      let (outcome, rest) := processThrough rest r
      (outcome, s :: rest)
    | (.drop reason, s) => (.drop reason, s :: rest)

/-! ## 3. Pipelines -/

/-- A list of stages. -/
structure Pipeline where
  stages : List Stage
deriving Repr, DecidableEq

/-- What happened to a batch. -/
structure Stats where
  seen : Nat := 0
  kept : Nat := 0
  duplicate : Nat := 0
  vetoed : Nat := 0
  irrelevant : Nat := 0
deriving Repr, DecidableEq

namespace Stats

/-- How many records were dropped for a reason. -/
def dropped (s : Stats) : DropReason → Nat
  | .duplicate => s.duplicate
  | .vetoed => s.vetoed
  | .irrelevant => s.irrelevant

/-- How many records were dropped. -/
def totalDropped (s : Stats) : Nat := s.duplicate + s.vetoed + s.irrelevant

/-- Counts one more record in front of those of `s`. -/
def count (s : Stats) : Outcome → Stats
  | .keep _ => { s with seen := s.seen + 1, kept := s.kept + 1 }
  | .drop .duplicate => { s with seen := s.seen + 1, duplicate := s.duplicate + 1 }
  | .drop .vetoed => { s with seen := s.seen + 1, vetoed := s.vetoed + 1 }
  | .drop .irrelevant => { s with seen := s.seen + 1, irrelevant := s.irrelevant + 1 }

end Stats

/-- The record that was kept, as a list. -/
def Outcome.kept : Outcome → List Record
  | .keep r => [r]
  | .drop _ => []

namespace Pipeline

/-- The usual pipeline: clean, remove duplicates, score, categorize. -/
def standard (j : Judges) : Pipeline :=
  ⟨[.cleaning, .dedup SeenLinks.empty, .scoring j.scorer, .categorizing j.categorizer]⟩

/-- The names of the stages. -/
def stageNames (p : Pipeline) : List String := p.stages.map Stage.name

/-- Runs one record through the pipeline. -/
def processItem (p : Pipeline) (r : Record) : Outcome × Pipeline :=
  let (outcome, stages) := processThrough p.stages r
  (outcome, ⟨stages⟩)

/-- What came of a batch: the kept records in their order, the counts, and the pipeline
afterwards. -/
structure BatchResult where
  kept : List Record
  stats : Stats
  pipeline : Pipeline
deriving Repr, DecidableEq

/-- Runs records through the pipeline one after another. -/
def processBatch (p : Pipeline) : List Record → BatchResult
  | [] => ⟨[], {}, p⟩
  | r :: rest =>
    let (outcome, next) := p.processItem r
    let result := next.processBatch rest
    ⟨outcome.kept ++ result.kept, result.stats.count outcome, result.pipeline⟩

/-- Begins a new run: every stage forgets what it remembers. -/
def reset (p : Pipeline) : Pipeline := ⟨p.stages.map Stage.fresh⟩

end Pipeline

end Shortlist
