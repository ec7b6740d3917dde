import SingleFile.Compile.Basic
import SingleFile.CommandLine.Command
import SingleFile.CommandLine.Markup
import SingleFile.Value.Json

/-!
# What the commands print

The result of a compile is printed as an object with its outcome, or as lines:
the error, the warnings, and the component with its functions as source.  A
check is printed as an object with its faults, or as a line for each of them.
A component that is missing or a faulty template makes the command fail.

Main results:

- `exitCode_eq_zero_iff`: a command succeeds exactly when there is a component.
-/

namespace SingleFile.CommandLine

/-! ## Objects -/

/-- The source of functions under their names. -/
def sourcesValue (methods : Table String String) : Value :=
  .object (methods.map fun (name, source) => (name, .text source))

/-- A field that is left out when it has no value. -/
def optionalField (key : String) (v : Option Value) : Table String Value :=
  (v.map fun v => (key, v)).toList

/-- The fields of a definition; what it does not have is left out. -/
def definitionFields (d : Component.Definition) : Table String Value :=
  [("template", .text d.template)] ++
    optionalField "setup" (d.setup.map Value.text) ++
    optionalField "data" (d.data.map Value.text) ++
    optionalField "methods"
      (if d.methods.isEmpty then none else some (sourcesValue d.methods)) ++
    optionalField "trust" (d.trust.map fun t => .text t.name)

/-- A definition as an object. -/
def definitionValue (d : Component.Definition) : Value :=
  .object (definitionFields d)

/-- The fields of the result of a compile. -/
def resultFields (r : CompileResult) : Table String Value :=
  [("success", .bool r.isSuccess),
    ("error", .ofText? r.error?),
    ("warnings", .ofTexts r.warnings),
    ("component", (r.component?.map fun c => definitionValue c.definition).getD .null)]

/-- The result of a compile as an object. -/
def resultValue (r : CompileResult) : Value :=
  .object (resultFields r)

/-- The fields of a check, by the faults that it finds. -/
def faultsFields (faults : List Template.Fault) : Table String Value :=
  [("errors", .ofTexts (faults.map Template.Fault.message)),
    ("is_valid", .bool faults.isEmpty)]

/-- The faults of a template as an object. -/
def faultsValue (faults : List Template.Fault) : Value :=
  .object (faultsFields faults)

/-! ## Lines -/

/-- The line of an error. -/
def errorLine (message : String) : String :=
  "error: " ++ printed message

/-- The line of a warning. -/
def warningLine (message : String) : String :=
  "warning: " ++ printed message

/-- A definition in parts, each of which ends its line. -/
def definitionLines (d : Component.Definition) : List String :=
  d.template :: (d.setup.toList ++ d.data.toList ++ d.methods.map Prod.snd)

/-- The result of a compile in lines. -/
def resultLines (r : CompileResult) : List String :=
  r.error?.toList.map errorLine ++ r.warnings.map warningLine ++
    r.component?.toList.flatMap fun c => definitionLines c.definition

/-- The faults of a template in lines. -/
def faultLines : List Template.Fault → List String
  | [] => ["Template is valid"]
  | faults => faults.map fun f => errorLine f.message

/-! ## Text -/

/-- Lines, each of them ended. -/
def ofLines (lines : List String) : String :=
  String.join (lines.map (· ++ "\n"))

/-- The result of a compile in a format. -/
def resultText (r : CompileResult) : OutputFormat → String
  | .json => ofLines [(resultValue r).json]
  | .text => ofLines (resultLines r)

/-- The faults of a template in a format. -/
def faultsText (faults : List Template.Fault) : OutputFormat → String
  | .json => ofLines [(faultsValue faults).json]
  | .text => ofLines (faultLines faults)

/-- The exit code of a command that was carried out. -/
def exitCode (success : Bool) : Nat :=
  if success then 0 else 1

/-- The command that compiles succeeds exactly when there is a component. -/
theorem exitCode_eq_zero_iff (r : CompileResult) :
    exitCode r.isSuccess = 0 ↔ ∃ c, r.component? = some c := by
  cases hc : r.component? <;> simp [exitCode, CompileResult.isSuccess, hc]

end SingleFile.CommandLine
