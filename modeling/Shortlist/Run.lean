import Shortlist.Pipeline.Basic
import Shortlist.Record.Stream
import Shortlist.Settings.Basic

/-!
# A run of the program

A run reads its settings, sends the records of the input file through the usual pipeline, and writes
those that are kept, one a line.  An input file that cannot be read counts as empty; settings that
cannot be used stop the run.  What is fetched from the seed addresses and how the proxies fare does
not change what is written.
-/

namespace Shortlist

open Pattern (InvalidPattern)
open Settings (Files Variables)

/-! ## 1. What can stop a run -/

/-- Why a run stopped. -/
inductive RunFault where
  /-- There are no settings. -/
  | settings (fault : Settings.Fault)
  /-- The address for metrics is none. -/
  | address (text : String)
  /-- A table of patterns cannot be used. -/
  | patterns (fault : InvalidPattern)
deriving Repr, DecidableEq

/-- The wording of a fault. -/
def RunFault.message : RunFault → String
  | .settings fault => fault.message
  | .address text => "metrics address cannot be read: " ++ text
  | .patterns fault => "table with an invalid pattern: " ++ fault.table

/-! ## 2. The records -/

/-- The usual pipeline with the usual tables. -/
def usualPipeline : Except InvalidPattern Pipeline := do
  let scorer ← Scorer.ofProfile Profile.standard
  let categorizer ← Categorizer.ofTables CategoryTables.standard
  return Pipeline.standard ⟨scorer, categorizer⟩

/-- The lines for the records of a file that are kept. -/
def sift (p : Pipeline) (content : Option ByteArray) : List String :=
  (p.processBatch (Record.loadOrEmpty content)).kept.map Record.line

/-! ## 3. The run -/

/-- A file in the directory of the settings. -/
def settingsPath (name : String) : String := "config/" ++ name

/-- The paths of all files where settings may stand. -/
def settingsPaths (vars : Variables) : List String :=
  ["default", Settings.environmentName vars].flatMap fun name =>
    (Settings.fileNames name).map settingsPath

/-- The settings of a run, given the files around it and the variables of its process. -/
def runSettings (files : Files) (vars : Variables) : Except RunFault Settings :=
  match Settings.load (fun name => files (settingsPath name)) vars with
  | .error fault => .error (.settings fault)
  | .ok settings =>
    match settings.metrics.address with
    | .error text => .error (.address text)
    | .ok _ => .ok settings

/-- The lines that a run writes, given the files around it and the variables of its process. -/
def runLines (files : Files) (vars : Variables) : Except RunFault (List String) :=
  match runSettings files vars, usualPipeline with
  | .error fault, _ => .error fault
  | .ok _, .error fault => .error (.patterns fault)
  | .ok settings, .ok pipeline =>
    match settings.run.input with
    | none => .ok []
    | some path => .ok (sift pipeline (files path))

end Shortlist
