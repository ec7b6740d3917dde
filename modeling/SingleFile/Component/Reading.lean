import SingleFile.Component.Host
import SingleFile.Value.Reading

/-!
# Reading functions and components

Functions and components may be given as records.  The rules for names and
parameters are those of admission; a component with two initializers is
refused.
-/

namespace SingleFile

/-- What is read, unless a rule finds a fault with it. -/
def unlessFault {α : Type} (fault? : α → Option FunctionFault) (a : α) : Reading α :=
  match fault? a with
  | none => .ok a
  | some f => Reading.fail (.rule f.message)

/-- A function from its record. -/
def ScriptFunction.read (v : Value) : Reading ScriptFunction :=
  (v.readRecord "ScriptFunction").andThen fun fields =>
    (((((Value.required fields "name" fun v => v.readText.andThen (unlessFault nameFault?)).both
      (Value.required fields "kind"
        (Value.readWord FunctionKind.ofName? ["setup", "data", "method"]))).both
      (Value.defaulted fields "params" [] fun v =>
        (v.readTuple Value.readText).andThen (unlessFault parametersFault?))).both
      (Value.required fields "body" Value.readText)).both
      (Value.defaulted fields "trust" .untrusted
        (Value.readWord TrustLevel.ofName? ["untrusted", "trusted"]))).mapRead
      fun ((((name, kind), parameters), body), trust) => { name, kind, parameters, body, trust }

/-- A component from its record. -/
def Component.read (v : Value) : Reading Component :=
  (v.readRecord "ComponentDescriptor").andThen fun fields =>
    ((((Value.required fields "template" Value.readText).both
      (Value.defaulted fields "setup" none (Value.readOptional ScriptFunction.read))).both
      (Value.defaulted fields "data" none (Value.readOptional ScriptFunction.read))).both
      (Value.defaulted fields "methods" none
        (Value.readOptional (Value.readDictionary ScriptFunction.read)))).andThen
      fun (((template, setup), data), methods) =>
        match Draft.component? { template, setup, data, methods } with
        | some c => .ok c
        | none => Reading.fail (.rule bothInitializersReason)

end SingleFile
