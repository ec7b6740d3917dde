import SingleFile.CommandLine.Run
import SingleFile.Log.Format
import SingleFile.Service.Basic

/-!
# The program

Reads the arguments, the settings' variables and the files that are named,
carries the command out, and prints what it has to say.
-/

namespace SingleFile.Program

open CommandLine

/-- The variables of the settings. -/
def readEnvironment : IO Environment :=
  Settings.Field.all.filterMapM fun f => do
    let name := (Settings.variableName f).toUpper
    return (← IO.getEnv name).map fun value => (name, value)

/-- The file that is found at a path. -/
def readEntry (path : String) : IO (Option Files.Entry) := do
  try
    let content ← IO.FS.readBinFile path
    return some (.file content.toList)
  catch _ => return none

/-- What is found at the paths that are called for. -/
def readFiles : Call → IO (Table String Files.Entry)
  | .help => return []
  | .invoke i =>
      i.paths.filterMapM fun path => do
        return (← readEntry path).map fun entry => (path, entry)

/-- The words for a refusal. -/
def refusalText : Refusal → String
  | .usage e => e.message
  | .logging f => f.text
  | .settings issues => (ServiceError.invalidSettings issues).message

/-- The lines that go to the error stream. -/
def reported : Except Refusal Output → List String
  | .ok out => out.records.map fun r => r.keyValueText none
  | .error e => [refusalText e]

/-- The files that arguments call for. -/
def filesOf (args : List String) : IO (Table String Files.Entry) :=
  match parse args with
  | .error _ => return []
  | .ok c => readFiles c

/-- Runs the program on its arguments. -/
def run (args : List String) : IO UInt32 := do
  let files ← filesOf args
  let outcome := CommandLine.run args (← readEnvironment) (Table.get? files)
  for line in reported outcome do
    IO.eprintln line
  IO.print (printedText outcome)
  return (exitStatus outcome).toUInt32

end SingleFile.Program

/-- The program. -/
def main (args : List String) : IO UInt32 :=
  SingleFile.Program.run args
