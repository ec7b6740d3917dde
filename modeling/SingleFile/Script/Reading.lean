import SingleFile.Script.Fragments
import SingleFile.Value.Reading

/-!
# Reading script fragments

Fragments may be given as records instead of being extracted.  A record with
the bodies of both initializers is refused.
-/

namespace SingleFile.Script

/-- A method fragment from its record. -/
def MethodFragment.read (v : Value) : Reading MethodFragment :=
  (v.readRecord "MethodFragment").andThen fun fields =>
    ((((Value.required fields "name" Value.readText).both
      (Value.required fields "params" Value.readText)).both
      (Value.required fields "body" Value.readText)).both
      (Value.required fields "source" Value.readText)).mapRead
      fun (((name, parameters), body), source) => { name, parameters, body, source }

/-- Why a record with two bodies is refused. -/
def bothBodiesReason : String :=
  "At most one initializer shape can be extracted"

/-- Fragments from their record. -/
def Fragments.read (v : Value) : Reading Fragments :=
  (v.readRecord "ScriptFragments").andThen fun fields =>
    (((Value.defaulted fields "setup_body" none (Value.readOptional Value.readText)).both
      (Value.defaulted fields "data_body" none (Value.readOptional Value.readText))).both
      (Value.defaulted fields "methods" none
        (Value.readOptional (Value.readDictionary MethodFragment.read)))).andThen
      fun ((setup, data), methods) =>
        match Initializer.ofRoles? setup data with
        | some initializer => .ok { initializer, methods }
        | none => Reading.fail (.rule bothBodiesReason)

end SingleFile.Script
