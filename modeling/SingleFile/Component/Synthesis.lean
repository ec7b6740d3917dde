import SingleFile.Component.Host
import SingleFile.Script.Fragments
import SingleFile.Script.Source
import SingleFile.Settings.Basic

/-!
# Synthesis

Builds the functions of a component from the fragments of a script and has the
host assemble them.  A function is built when its body is well formed and its
name and parameters are proper; the first function that is not ends the
synthesis.

Main results:

- `buildFunction_eq_ok_iff`: when a function is built, and which one.
-/

namespace SingleFile

/-! ## Errors -/

/-- Why a component is not made. -/
inductive SynthesisFault where
  /-- A body is malformed. -/
  | malformed (error : Script.Source.Error)
  /-- A function is not admitted. -/
  | inadmissible (faults : List FunctionFault)
  /-- The host rejects the parts. -/
  | rejected (reasons : List String)
  /-- The host fails. -/
  | hostFailed (failure : Failure)
  /-- Any other report. -/
  | reported (message : String)
deriving DecidableEq, Repr

/-- The words for a fault. -/
def SynthesisFault.message : SynthesisFault → String
  | malformed e => e.message
  | inadmissible faults => "; ".intercalate (faults.map FunctionFault.message)
  | rejected reasons => "; ".intercalate reasons
  | hostFailed f => "Error creating component. " ++ f.display ++ "."
  | reported message => message

/-- A fault, and the fragment that it lies in when it lies in one. -/
structure SynthesisError where
  fault : SynthesisFault
  fragment : Option String := none
deriving DecidableEq, Repr

/-- The words for an error.  A fragment without a label is not mentioned. -/
def SynthesisError.message (e : SynthesisError) : String :=
  match e.fragment with
  | none => e.fault.message
  | some label => if label = "" then e.fault.message else label ++ ": " ++ e.fault.message

/-! ## Building functions -/

/-- How messages refer to a function. -/
def functionLabel (name : String) : FunctionKind → String
  | .method => "method " ++ name ++ "()"
  | _ => name ++ "()"

/-- Builds a function, or says what is wrong with it: its body comes first. -/
def buildFunction (settings : Settings) (name : String) (kind : FunctionKind)
    (parameters : List String) (body : String) : Except SynthesisError ScriptFunction :=
  match Script.Source.check body with
  | .error e => .error ⟨.malformed e, some (functionLabel name kind)⟩
  | .ok () =>
      match ScriptFunction.validate ⟨name, kind, parameters, body, settings.trustLevel⟩ with
      | .error faults => .error ⟨.inadmissible faults, some (functionLabel name kind)⟩
      | .ok f => .ok f

/-- A function is built exactly when its body is well formed and its name and
parameters are proper; it holds what it was built from. -/
theorem buildFunction_eq_ok_iff (settings : Settings) (name : String) (kind : FunctionKind)
    (parameters : List String) (body : String) (f : ScriptFunction) :
    buildFunction settings name kind parameters body = .ok f ↔
      f = ⟨name, kind, parameters, body, settings.trustLevel⟩ ∧
        Script.Source.check body = .ok () ∧ Script.isIdentifier name = true ∧
          ∀ p ∈ parameters, Script.isParameter p = true := by
  unfold buildFunction
  split
  · rename_i e he
    simp [he]
  · rename_i hb
    have hchecked := ScriptFunction.validate_eq_ok_iff
      ⟨name, kind, parameters, body, settings.trustLevel⟩
    split
    · rename_i faults hf
      simp only [reduceCtorEq, false_iff]
      rintro ⟨_, _, hn, hp⟩
      have := (hchecked ⟨name, kind, parameters, body, settings.trustLevel⟩).mpr ⟨rfl, hn, hp⟩
      simp [hf] at this
    · rename_i g hg
      have hg' := (hchecked g).mp hg
      simp only [Except.ok.injEq, hb, true_and]
      exact ⟨fun h => ⟨h ▸ hg'.1, hg'.2⟩, fun h => hg'.1.trans h.1.symm⟩

/-- Builds the initializer of some fragments. -/
def buildInitializer (settings : Settings) :
    Option (Initializer String) → Except SynthesisError (Option (Initializer ScriptFunction))
  | none => .ok none
  | some (.setup body) =>
      (buildFunction settings "setup" .setup settings.setupBindings body).map (some <| .setup ·)
  | some (.data body) =>
      (buildFunction settings "data" .data [] body).map (some <| .data ·)

/-- Builds the method of a table entry. -/
def buildMethod (settings : Settings) (name : String) (m : Script.MethodFragment) :
    Except SynthesisError ScriptFunction :=
  buildFunction settings name .method (Script.splitParameters m.parameters) m.body

/-- Builds the methods of a table in order, up to the first that fails. -/
def buildMethods (settings : Settings) :
    Table String Script.MethodFragment → Except SynthesisError (Table String ScriptFunction)
  | [] => .ok []
  | (name, m) :: t =>
      match buildMethod settings name m with
      | .error e => .error e
      | .ok f => (buildMethods settings t).map ((name, f) :: ·)

/-! ## Assembly -/

/-- The parts that a host is given for a template and fragments. -/
def draft (settings : Settings) (template : String) (fragments : Script.Fragments) :
    Except SynthesisError Draft :=
  match buildInitializer settings fragments.initializer with
  | .error e => .error e
  | .ok initializer =>
      match buildMethods settings fragments.entries with
      | .error e => .error e
      | .ok methods =>
          .ok {
            template := Text.trimmed template
            setup := Initializer.setup? initializer
            data := Initializer.data? initializer
            methods := if methods.isEmpty then none else some methods }

/-- Has a host assemble parts. -/
def assemble (host : Host) (d : Draft) : Except SynthesisError Component :=
  match host d with
  | .ok c => .ok c
  | .error (.invalid reasons) => .error { fault := .rejected reasons }
  | .error (.failed f) => .error { fault := .hostFailed f }

/-- Makes a component from a template and fragments. -/
def synthesize (settings : Settings) (host : Host) (template : String)
    (fragments : Script.Fragments) : Except SynthesisError Component :=
  match draft settings template fragments with
  | .error e => .error e
  | .ok d => assemble host d

end SingleFile
