import LayoutScript.Command.Run

/-!
The command line program: it reads the files that an invocation names and writes
the report.
-/

namespace LayoutScript

/-- What a path leads to; whatever exists but cannot be read counts as a directory. -/
def readEntry (path : String) : IO Entry := do
  try
    return .file (← IO.FS.readFile path)
  catch error =>
    match error with
    | .noFileOrDirectory _ _ _ => return .missing
    | _ => return .directory

/-- The paths that an invocation may read. -/
def Command.Invocation.paths (invocation : Command.Invocation)
    (surroundings : Settings.Surroundings) : List Path :=
  let explicit := match invocation.config with
    | .file config => ((Path.ofText config).expandHome? surroundings.home).toList
    | .search => (Settings.searchPaths surroundings).toOption.getD []
    | .erased => []
  Path.ofText invocation.file :: explicit

/-- The files among paths. -/
def readFiles (paths : List Path) : IO Files := do
  let entries ← paths.mapM fun path => do return (path, ← readEntry path.text)
  return fun path => (entries.lookup path).getD .missing

/-- Fuel for a script that is limited by its settings alone. -/
def ampleFuel : Nat := 4000000000000000000

/-- Calls in progress that this host holds. -/
def hostCapacity : Nat := 320

def runCommand (arguments : List String) : IO UInt32 := do
  let surroundings : Settings.Surroundings :=
    ⟨(← IO.getEnv "HOME").getD "", ← IO.getEnv "BOBA_CONFIG"⟩
  let request := Command.Request.ofArguments arguments
  let files ← match request with
    | .invoke invocation => readFiles (invocation.paths surroundings)
    | _ => pure fun _ => .missing
  match Command.perform files surroundings hostCapacity ampleFuel request with
  | .report report =>
      (← IO.getStdout).putStr report.stdout
      (← IO.getStderr).putStr report.stderr
      return UInt32.ofNat report.exit
  | .usage exit stdout =>
      (← IO.getStdout).putStr stdout
      return UInt32.ofNat exit
  | .fault error =>
      (← IO.getStderr).putStr (error.message ++ "\n")
      return 1
  | .crash stdout stderr fault =>
      (← IO.getStdout).putStr stdout
      (← IO.getStderr).putStr (stderr ++ fault.className ++ ": " ++ fault.message ++ "\n")
      return 1

end LayoutScript

def main (arguments : List String) : IO UInt32 := LayoutScript.runCommand arguments
