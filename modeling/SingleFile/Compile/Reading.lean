import SingleFile.Compile.Basic
import SingleFile.Component.Reading
import SingleFile.Value.Assignment

/-!
# Results as records

A result of a compile or of a check may be given as a record, and its fields
may be assigned afterwards.  The record is checked when it is read: it has to
hold exactly one of component and error.  An assignment is not checked, so that
an edited record holds values of any kind, and lacks some when all its fields
have been replaced.

Main results:

- `isValid_eq_ok_true_iff`: an edited check is valid exactly when it has errors
  that count as absent.
-/

namespace SingleFile

/-! ## Results of a compile -/

/-- Why a record of a result is refused. -/
def CompileResult.exclusiveReason : String :=
  "CompileResult must carry exactly one of component or error"

/-- The result of a compile from its record. -/
def CompileResult.read (v : Value) : Reading CompileResult :=
  (v.readRecord "CompileResult").andThen fun fields =>
    (((Value.defaulted fields "component" none (Value.readOptional Component.read)).both
      (Value.defaulted fields "error" none (Value.readOptional Value.readText))).both
      (Value.defaulted fields "warnings" [] (Value.readList Value.readText))).andThen
      fun ((component, error), warnings) =>
        match component, error with
        | some c, none => .ok (.success c warnings)
        | none, some e => .ok (.failure e warnings)
        | _, _ => Reading.fail (.rule CompileResult.exclusiveReason)

/-- The attribute of a name, or that the record of the given name does not have it. -/
def Attributes.member (a : Attributes) (record name : String) : Except MissingMember Value :=
  match a.get? name with
  | some v => .ok v
  | none => .error ⟨record, name⟩

/-- A result whose fields may have been assigned.  Its component stays what it was until
that field is assigned too. -/
structure EditedResult where
  original : Option Component
  attributes : Attributes

namespace EditedResult

/-- A result before any assignment. -/
def ofResult (r : CompileResult) : EditedResult where
  original := r.component?
  attributes :=
    { fields :=
        [("component", .null), ("error", .ofText? r.error?), ("warnings", .ofTexts r.warnings)] }

/-- The error of an edited result. -/
def error (r : EditedResult) : Except MissingMember Value :=
  r.attributes.member "CompileResult" "error"

/-- The warnings of an edited result. -/
def warnings (r : EditedResult) : Except MissingMember Value :=
  r.attributes.member "CompileResult" "warnings"

/-- Something other than null stands for the component. -/
def isSuccess (r : EditedResult) : Except MissingMember Bool :=
  match r.original with
  | some _ => .ok true
  | none =>
      (r.attributes.member "CompileResult" "component").map fun
        | .null => false
        | _ => true

/-- The component of an edited result, if what stands for it is one. -/
def component? (r : EditedResult) : Except MissingMember (Option Component) :=
  match r.original with
  | some c => .ok (some c)
  | none =>
      match r.attributes.member "CompileResult" "component" with
      | .ok .null => .ok none
      | .ok v => .error ⟨v.kindName, "to_definition"⟩
      | .error e => .error e

/-- The record when a reserved name has been assigned. -/
def apply (r : EditedResult) (effect : ReservedEffect) : EditedResult where
  original :=
    match effect with
    | .replaced _ => none
    | _ => r.original
  attributes := r.attributes.apply effect

/-- The record after an assignment. -/
def assign (r : EditedResult) (name : String) (v : Value) : Except AssignmentError EditedResult :=
  if isReservedName name then (reservedEffect "CompileResult" name v).map r.apply
  else if name = "component" then .ok ⟨none, r.attributes.put name v⟩
  else if name = "error" ∨ name = "warnings" then
    .ok { r with attributes := r.attributes.put name v }
  else if name = "ok" ∨ isComputedName name then .error (.computed "CompileResult" name)
  else .error (.noField "CompileResult" name)

end EditedResult

/-! ## Results of a check -/

/-- The errors of a check whose record may have been edited. -/
structure EditedCheck where
  attributes : Attributes

namespace EditedCheck

/-- A check with the given errors. -/
def ofErrors (errors : List String) : EditedCheck :=
  ⟨{ fields := [("errors", .ofTexts errors)] }⟩

/-- The result of a check from its record. -/
def read (v : Value) : Reading EditedCheck :=
  (v.readRecord "ValidationResult").andThen fun fields =>
    (Value.defaulted fields "errors" [] (Value.readList Value.readText)).mapRead ofErrors

/-- The errors of an edited check. -/
def errors (c : EditedCheck) : Except MissingMember Value :=
  c.attributes.member "ValidationResult" "errors"

/-- There are no errors. -/
def isValid (c : EditedCheck) : Except MissingMember Bool :=
  c.errors.map fun v => !v.isTruthy

/-- The record after an assignment. -/
def assign (c : EditedCheck) (name : String) (v : Value) : Except AssignmentError EditedCheck :=
  if isReservedName name then
    (reservedEffect "ValidationResult" name v).map fun effect => ⟨c.attributes.apply effect⟩
  else if name = "errors" then .ok ⟨c.attributes.put name v⟩
  else if name = "is_valid" ∨ isComputedName name then .error (.computed "ValidationResult" name)
  else .error (.noField "ValidationResult" name)

/-- An edited check is valid exactly when it has errors that count as absent. -/
theorem isValid_eq_ok_true_iff (c : EditedCheck) :
    c.isValid = .ok true ↔ ∃ v, c.errors = .ok v ∧ v.isTruthy = false := by
  unfold isValid
  cases c.errors <;> simp [Except.map]

end EditedCheck

end SingleFile
