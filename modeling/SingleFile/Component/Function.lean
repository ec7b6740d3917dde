import SingleFile.Script.Identifier
import SingleFile.Text.Quoted

/-!
# Script functions

A script function is text that a host may run: a name, parameters and a body,
with the role it plays in its component and the trust its script was given.
This library never runs one; it renders the source of the function.

Main results:

- `validate_eq_ok_iff`: exactly the functions with a proper name and proper
  parameters are admitted.
-/

namespace SingleFile

/-- How far the origin of a script is trusted. -/
inductive TrustLevel where
  | untrusted
  | trusted
deriving DecidableEq, Repr

/-- The word for a trust level. -/
def TrustLevel.name : TrustLevel → String
  | untrusted => "untrusted"
  | trusted => "trusted"

/-- The trust level that a word names. -/
def TrustLevel.ofName? (s : String) : Option TrustLevel :=
  if s = "untrusted" then some untrusted
  else if s = "trusted" then some trusted
  else none

@[simp]
theorem TrustLevel.ofName?_name (t : TrustLevel) : ofName? t.name = some t := by
  cases t <;> rfl

/-- The role of a function in its component. -/
inductive FunctionKind where
  | setup
  | data
  | method
deriving DecidableEq, Repr

/-- The word for a role. -/
def FunctionKind.name : FunctionKind → String
  | setup => "setup"
  | data => "data"
  | method => "method"

/-- The role that a word names. -/
def FunctionKind.ofName? (s : String) : Option FunctionKind :=
  if s = "setup" then some setup
  else if s = "data" then some data
  else if s = "method" then some method
  else none

@[simp]
theorem FunctionKind.ofName?_name (k : FunctionKind) : ofName? k.name = some k := by
  cases k <;> rfl

/-- A function as text. -/
structure ScriptFunction where
  name : String
  kind : FunctionKind
  parameters : List String := []
  body : String
  trust : TrustLevel := .untrusted
deriving DecidableEq, Repr

/-! ## Admission -/

/-- Why a function is not admitted. -/
inductive FunctionFault where
  /-- The name is no identifier. -/
  | badName (name : String)
  /-- Some parameters are no parameters. -/
  | badParameters (parameters : List String)
deriving DecidableEq, Repr

/-- The words for a fault. -/
def FunctionFault.message : FunctionFault → String
  | badName name => "Invalid function name: " ++ Text.quoted name
  | badParameters ps => "Invalid parameter names: " ++ ", ".intercalate (ps.map Text.quoted)

/-- The fault of a name. -/
def nameFault? (name : String) : Option FunctionFault :=
  if Script.isIdentifier name then none else some (.badName name)

/-- The fault of a parameter list. -/
def parametersFault? (parameters : List String) : Option FunctionFault :=
  match parameters.filter fun p => !Script.isParameter p with
  | [] => none
  | ps => some (.badParameters ps)

namespace ScriptFunction

/-- All faults of a function, the name's first. -/
def faults (f : ScriptFunction) : List FunctionFault :=
  (nameFault? f.name).toList ++ (parametersFault? f.parameters).toList

/-- The function itself when it has no fault. -/
def validate (f : ScriptFunction) : Except (List FunctionFault) ScriptFunction :=
  match f.faults with
  | [] => .ok f
  | faults => .error faults

/-- A name is not faulted exactly when it is an identifier. -/
theorem nameFault?_eq_none_iff (name : String) :
    nameFault? name = none ↔ Script.isIdentifier name = true := by
  simp [nameFault?]

/-- Parameters are not faulted exactly when each may be one. -/
theorem parametersFault?_eq_none_iff (ps : List String) :
    parametersFault? ps = none ↔ ∀ p ∈ ps, Script.isParameter p = true := by
  unfold parametersFault?
  split <;> rename_i h
  · simpa using h
  · simp only [reduceCtorEq, false_iff]
    exact fun hall => h (by simpa using hall)

/-- Exactly the functions with a proper name and proper parameters are
admitted, unchanged. -/
theorem validate_eq_ok_iff (f g : ScriptFunction) :
    f.validate = .ok g ↔
      g = f ∧ Script.isIdentifier f.name = true ∧
        ∀ p ∈ f.parameters, Script.isParameter p = true := by
  rw [← nameFault?_eq_none_iff, ← parametersFault?_eq_none_iff]
  simp only [validate, faults]
  cases nameFault? f.name <;> cases parametersFault? f.parameters <;> simp [eq_comm]

/-! ## Rendering -/

/-- The lines of the function's source.  A blank body has no line, and `setup`
always returns an empty object. -/
def sourceLines (f : ScriptFunction) : List String :=
  let body := Text.trimmed f.body
  ["function " ++ f.name ++ "(" ++ ", ".intercalate f.parameters ++ ") \x7b"] ++
    (if body = "" then [] else [body]) ++
    (if f.kind = .setup then ["return \x7b\x7d;"] else []) ++
    ["\x7d"]

/-- The source that a host evaluates. -/
def toSource (f : ScriptFunction) : String :=
  "\n".intercalate f.sourceLines

end ScriptFunction

end SingleFile
