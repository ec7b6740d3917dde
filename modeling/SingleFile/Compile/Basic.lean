import SingleFile.Component.Synthesis
import SingleFile.Script.Extraction
import SingleFile.Template.Check

/-!
# Compiling

A compile takes a template, a script and a style, each of any kind, to a result
that holds a component or an error, and warnings in the order in which they
arose.  The template is checked first, and its first fault is the result.  What
goes wrong while the script is read is warned about; what goes wrong while the
component is made is an error.  Every other failure is caught at the boundary
and becomes an error as well.
-/

namespace SingleFile

/-! ## Results -/

/-- What a compile makes: a component or an error, and warnings. -/
structure CompileResult where
  outcome : Except String Component
  warnings : List String := []

namespace CompileResult

/-- A result that holds a component. -/
def success (c : Component) (warnings : List String := []) : CompileResult :=
  ⟨.ok c, warnings⟩

/-- A result that holds an error. -/
def failure (error : String) (warnings : List String := []) : CompileResult :=
  ⟨.error error, warnings⟩

/-- The component of a success. -/
def component? (r : CompileResult) : Option Component :=
  match r.outcome with
  | .ok c => some c
  | .error _ => none

/-- The error of a failure. -/
def error? (r : CompileResult) : Option String :=
  match r.outcome with
  | .ok _ => none
  | .error e => some e

/-- The result holds a component. -/
def isSuccess (r : CompileResult) : Bool :=
  r.component?.isSome

@[simp]
theorem component?_success (c : Component) (ws : List String) :
    (success c ws).component? = some c :=
  rfl

@[simp]
theorem component?_failure (e : String) (ws : List String) :
    (failure e ws).component? = none :=
  rfl

@[simp]
theorem error?_success (c : Component) (ws : List String) : (success c ws).error? = none :=
  rfl

@[simp]
theorem error?_failure (e : String) (ws : List String) : (failure e ws).error? = some e :=
  rfl

end CompileResult

/-! ## The compiler -/

/-- The stages of a compile that are set to fail whenever they are reached. -/
structure StageFailures where
  recognizer : Option Failure := none
  extraction : Option Failure := none
  synthesis : Option Failure := none
deriving DecidableEq, Repr

/-- Settings, a host, and the stages that are set to fail. -/
structure Compiler where
  settings : Settings := {}
  host : Host := Host.standard
  failures : StageFailures := {}

namespace Compiler

/-- The script that is extracted from: an absent one reads as the empty text. -/
def presentedScript (script : Value) : Value :=
  if script.isTruthy then script else .text ""

/-- The fragments of a script, or how their extraction fails. -/
def extraction (k : Compiler) (script : Value) : Except Failure Script.Fragments :=
  match k.failures.extraction with
  | some f => .error f
  | none => Script.extract k.failures.recognizer script

/-- The warning that extraction failed. -/
def extractionWarning (f : Failure) : String :=
  "Script parsing warning: " ++ f.text

/-- The warning that a script has no recognised shape. -/
def unrecognizedWarning : String :=
  "Script parsing warning: no setup(), data() or methods block recognized"

/-- The script is a text that is not blank. -/
def isFilled : Value → Bool
  | .text s => !Text.isBlankString s
  | _ => false

/-- The fragments that a compile goes on with, and what it warns about. -/
def fragmentsAndWarnings (k : Compiler) (script : Value) :
    Except Failure (Script.Fragments × List String) :=
  match k.extraction script with
  | .error f =>
      if f.kind = .extraction then .ok ({}, [extractionWarning f]) else .error f
  | .ok fragments =>
      if fragments.isEmpty && isFilled script && k.settings.warnOnUnrecognizedScript then
        .ok (fragments, [unrecognizedWarning])
      else .ok (fragments, [])

/-- The component of a template and fragments, or how its synthesis fails. -/
def synthesis (k : Compiler) (template : String) (fragments : Script.Fragments) :
    Except Failure Component :=
  match k.failures.synthesis with
  | some f => .error f
  | none =>
      match synthesize k.settings k.host template fragments with
      | .ok c => .ok c
      | .error e => .error ⟨.synthesis, e.message⟩

/-- An error of the compile, after the given label. -/
def labelled (label : String) (f : Failure) : String :=
  label ++ ": " ++ f.text

/-- The compile of a template that has no fault. -/
def compileAdmitted (k : Compiler) (template : String) (script : Value) :
    Except Failure CompileResult :=
  match k.fragmentsAndWarnings (presentedScript script) with
  | .error f => .error f
  | .ok (fragments, warnings) =>
      match k.synthesis template fragments with
      | .ok c => .ok (.success c warnings)
      | .error f =>
          if f.kind = .synthesis then .ok (.failure (labelled "Compilation error" f) warnings)
          else .error f

/-- The compile of a template and a script, before its boundary. -/
def compileScript (k : Compiler) (template script : Value) : Except Failure CompileResult :=
  match template with
  | .text t =>
      match Template.textFaults k.settings t with
      | [] => k.compileAdmitted t script
      | fault :: _ => .ok (.failure fault.message)
  | v => .ok (.failure (Template.Fault.notText v.kindName).message)

/-- The notice that styles have no effect. -/
def styleNotice : String :=
  "Custom styles are not fully supported in this demo"

/-- A style calls for the notice when it is a text that is not blank; a present
style of another kind cannot be judged. -/
def needsStyleNotice : Value → Except Failure Bool
  | .text s => .ok (!Text.isBlankString s)
  | v =>
      if v.isTruthy then
        .error ⟨.missingMember, "'" ++ v.kindName ++ "' object has no attribute 'strip'"⟩
      else .ok false

/-- A result with the notice that its style calls for. -/
def withStyle (style : Value) (r : CompileResult) : Except Failure CompileResult :=
  if r.isSuccess then
    match needsStyleNotice style with
    | .error f => .error f
    | .ok true => .ok { r with warnings := r.warnings ++ [styleNotice] }
    | .ok false => .ok r
  else .ok r

/-- A result, or the error that a failure becomes at the boundary. -/
def atBoundary (label : String) : Except Failure CompileResult → CompileResult
  | .ok r => r
  | .error f => .failure (labelled label f)

/-- Compiles a template, a script and a style. -/
def compile (k : Compiler) (template script style : Value) : CompileResult :=
  atBoundary "SFC compilation error"
    (match k.compileScript template script with
    | .error f => .error f
    | .ok r => withStyle style r)

/-- Compiles a template and a script. -/
def compileTemplate (k : Compiler) (template script : Value) : CompileResult :=
  atBoundary "Compilation error" (k.compileScript template script)

end Compiler

end SingleFile
