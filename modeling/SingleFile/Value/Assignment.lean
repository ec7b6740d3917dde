import SingleFile.Table
import SingleFile.Value.Basic
import SingleFile.Value.Issue

/-!
# Assigning to records

A record that may not be changed refuses every assignment to a named field.
Other records refuse a name that they do not have, and a name that they only
compute.  A name that starts with a low line is not one of a declared field, and
an assignment to it is not checked by the record.  Three such names reach the
declared fields all the same: one stands for all fields at once, one for attributes
that are laid by until a field is missing or assigned, and one for what checks the
assignments.

Main results:

- `get?_put_of_ne`: writing an attribute keeps every other one.
- `reservedEffect_eq_replaced_iff`: which assignment replaces all fields.
-/

namespace SingleFile

/-- A member that a value of some kind does not have. -/
structure MissingMember where
  kind : String
  member : String
deriving DecidableEq, Repr

/-- The words for a missing member. -/
def MissingMember.message (e : MissingMember) : String :=
  "'" ++ e.kind ++ "' object has no attribute '" ++ e.member ++ "'"

/-- Why an assignment is refused. -/
inductive AssignmentError where
  /-- The value does not pass. -/
  | invalid (issues : List Issue)
  /-- The record of the given name has no such field. -/
  | noField (record name : String)
  /-- The record of the given name computes the field. -/
  | computed (record name : String)
  /-- The value, of the given kind, is no class. -/
  | notClass (kind : String)
  /-- The value, of the given kind, is no dictionary of fields. -/
  | notFields (kind : String)
  /-- What stands in the place of the check cannot check. -/
  | noCheck (e : MissingMember)
deriving DecidableEq, Repr

/-- The words for a refused assignment. -/
def AssignmentError.message : AssignmentError → String
  | invalid issues => "; ".intercalate (issues.map fun i => i.cause.message)
  | noField record name => "\"" ++ record ++ "\" object has no field \"" ++ name ++ "\""
  | computed record name => "property '" ++ name ++ "' of '" ++ record ++ "' object has no setter"
  | notClass kind => "__class__ must be set to a class, not '" ++ kind ++ "' object"
  | notFields kind => "__dict__ must be set to a dictionary, not a '" ++ kind ++ "'"
  | noCheck e => e.message

/-! ## Attributes -/

/-- What a record holds under names: its fields, and attributes that are laid by.
The latter are found where a field is missing. -/
structure Attributes where
  fields : Table String Value
  laidBy : Table String Value := []

namespace Attributes

/-- The attribute of a name. -/
def get? (a : Attributes) (name : String) : Option Value :=
  (a.fields.get? name).or (a.laidBy.get? name)

/-- The attributes with a field written; those that are laid by stay where they are. -/
def put (a : Attributes) (name : String) (v : Value) : Attributes :=
  { a with fields := a.fields.put name v }

/-- The attributes that are laid by are written over the fields. -/
def settled (a : Attributes) : Attributes where
  fields := Table.ofEntries (a.fields ++ a.laidBy)

/-- Writing an attribute keeps every other one. -/
theorem get?_put_of_ne (a : Attributes) {name name' : String} (v : Value) (h : name ≠ name') :
    (a.put name v).get? name' = a.get? name' := by
  simp [get?, put, Table.get?_put_of_ne _ _ h]

end Attributes

/-! ## Reserved names -/

/-- A name that is kept apart from the fields. -/
def isReservedName (name : String) : Bool :=
  name.toList.head? == some '_'

/-- What an assignment to a reserved name does to the attributes of a record. -/
inductive ReservedEffect where
  /-- They stay as they are. -/
  | kept
  /-- The value is found under the name from now on, like that of a field. -/
  | written (name : String) (v : Value)
  /-- Other fields take the place of all fields, unchecked. -/
  | replaced (fields : Table String Value)
  /-- Attributes are laid by in place of earlier ones, unchecked. -/
  | laidBy (attributes : Table String Value)

/-- What an assignment to a reserved name does, unless it is refused.  A record keeps
notes of itself under further names, and some of them have a place apart from its
attributes; what follows when such a note is overwritten is left open here. -/
def reservedEffect (record name : String) (v : Value) : Except AssignmentError ReservedEffect :=
  match name, v with
  | "__class__", v => .error (.notClass v.kindName)
  | "__dict__", .object fields => .ok (.replaced fields)
  | "__dict__", v => .error (.notFields v.kindName)
  | "__fields_set__", _ => .error (.computed record name)
  | "__pydantic_extra__", .object attributes => .ok (.laidBy attributes)
  | "__pydantic_extra__", .null => .ok (.laidBy [])
  | "__pydantic_extra__", _ | "__pydantic_fields_set__", _ | "__pydantic_private__", _ =>
      .ok .kept
  | name, v => .ok (.written name v)

/-- The attributes after an assignment to a reserved name. -/
def Attributes.apply (a : Attributes) : ReservedEffect → Attributes
  | .kept => a
  | .written name v => a.put name v
  | .replaced fields => { a with fields }
  | .laidBy laidBy => { a with laidBy }

/-- All fields are replaced exactly by assigning an object to the one name that stands
for them. -/
theorem reservedEffect_eq_replaced_iff {record name : String} {v : Value}
    {fields : Table String Value} :
    reservedEffect record name v = .ok (.replaced fields) ↔
      name = "__dict__" ∧ v = .object fields := by
  constructor
  · intro h
    unfold reservedEffect at h
    split at h <;> simp_all
  · rintro ⟨rfl, rfl⟩
    rfl

/-- The failure of a checked assignment when something else stands in the place of the
check, which is found among the fields first. -/
def Attributes.checkFailure? (a : Attributes) : Option AssignmentError :=
  (a.fields.get? "__pydantic_validator__").map fun v =>
    .noCheck ⟨v.kindName, "validate_assignment"⟩

/-- A name that every record computes. -/
def isComputedName (name : String) : Bool :=
  name == "model_extra" || name == "model_fields_set"

/-- An assignment to a record that may not be changed: it is refused, unless it goes past
the fields. -/
def assignFrozen (record name : String) (v : Value) : Except AssignmentError ReservedEffect :=
  if isReservedName name then reservedEffect record name v
  else .error (.invalid [{ path := [.field name], cause := .frozen }])

/-- A record that may not be changed accepts nothing but assignments that go past its
fields. -/
theorem assignFrozen_eq_ok {record name : String} {v : Value} {effect : ReservedEffect}
    (h : assignFrozen record name v = .ok effect) :
    isReservedName name = true ∧ reservedEffect record name v = .ok effect := by
  unfold assignFrozen at h
  split at h
  · rename_i hname
    exact ⟨hname, h⟩
  · cases h

end SingleFile
