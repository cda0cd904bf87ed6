import Shortlist.Run

/-!
# The command

Reads the files that a run may need, and writes its lines to the standard output.  A run that stops
ends with exit code 1 and says why on the standard error output.
-/

namespace Shortlist.Command

/-- The content of a file, if it can be read. -/
def contentOf (path : String) : IO (Option ByteArray) := do
  try return some (← IO.FS.readBinFile path)
  catch _ => return none

/-- The contents of some files by their paths. -/
def contentsOf (paths : List String) : IO Settings.Files := do
  let contents ← paths.mapM fun path => return (path, ← contentOf path)
  return fun path => (contents.find? (·.1 == path)).bind Prod.snd

/-- The variables of this process. -/
def processVariables : IO Settings.Variables := do
  let list := (← contentOf "/proc/self/environ").bind String.fromUTF8?
  return Settings.variablesOfList (list.getD "").toList

/-- Runs the program in the current directory. -/
def run : IO UInt32 := do
  let vars ← processVariables
  let paths := settingsPaths vars
  let input := match runSettings (← contentsOf paths) vars with
    | .ok settings => settings.run.input.toList
    | .error _ => []
  match runLines (← contentsOf (paths ++ input)) vars with
  | .ok lines =>
    for line in lines do IO.println line
    return 0
  | .error fault =>
    IO.eprintln fault.message
    return 1

end Shortlist.Command

def main : IO UInt32 := Shortlist.Command.run
