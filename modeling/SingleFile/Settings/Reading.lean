import SingleFile.Environment
import SingleFile.Settings.Basic
import SingleFile.Value.Assignment
import SingleFile.Value.Reading

/-!
# Reading settings

Settings come from given values and from environment variables; a given value
wins.  A variable is named `SFCPLAY_` and the field, in any capitals.  A list is
written in a variable with commas.  A later assignment is read by the same rule
as the first value of its field, and changes that field alone.

In use, settings are an object with attributes.  An assignment to a reserved
name goes past the fields' readings; so an object need not come to settings.

Main results:

- `assign_other`: an accepted assignment keeps every other field.
- `ofAttributes_attributes`: settings are told by the attributes of their object.
-/

namespace SingleFile.Settings

/-! ## Fields -/

/-- The fields of the settings. -/
inductive Field where
  | directivePrefix
  | valuelessDirectives
  | setupBindings
  | trustLevel
  | warnOnUnrecognizedScript
deriving DecidableEq, Repr

/-- The name of a field in values and variables. -/
def Field.name : Field → String
  | directivePrefix => "directive_prefix"
  | valuelessDirectives => "valueless_directives"
  | setupBindings => "setup_bindings"
  | trustLevel => "trust_level"
  | warnOnUnrecognizedScript => "warn_on_unrecognized_script"

/-- Every field, in order. -/
def Field.all : List Field :=
  [directivePrefix, valuelessDirectives, setupBindings, trustLevel, warnOnUnrecognizedScript]

/-- The field of a name. -/
def Field.ofName? (s : String) : Option Field :=
  all.find? fun f => f.name == s

/-- The field holds a list. -/
def Field.isList : Field → Bool
  | valuelessDirectives | setupBindings => true
  | _ => false

@[simp]
theorem Field.ofName?_name (f : Field) : ofName? f.name = some f := by
  cases f <;> decide

/-! ## Reading one field -/

/-- What a rule makes of a value, as a reading. -/
def underRule {α : Type} : Except Fault α → Reading α
  | .ok a => .ok a
  | .error f => Reading.fail (.rule f.message)

/-- A directive prefix. -/
def readPrefix (v : Value) : Reading String :=
  v.readText.andThen fun s => underRule (checkPrefix s)

/-- A list of texts. -/
def readTexts (v : Value) : Reading (List String) :=
  v.readList Value.readText

/-- Setup bindings. -/
def readBindings (v : Value) : Reading (List String) :=
  (readTexts v).andThen fun names => underRule (checkBindings names)

/-- A trust level. -/
def readTrust (v : Value) : Reading TrustLevel :=
  v.readWord TrustLevel.ofName? ["untrusted", "trusted"]

/-- The settings with one field read from a value. -/
def update (s : Settings) (f : Field) (v : Value) : Reading Settings :=
  match f with
  | .directivePrefix => (readPrefix v).mapRead fun a => { s with directivePrefix := a }
  | .valuelessDirectives => (readTexts v).mapRead fun a => { s with valuelessDirectives := a }
  | .setupBindings => (readBindings v).mapRead fun a => { s with setupBindings := a }
  | .trustLevel => (readTrust v).mapRead fun a => { s with trustLevel := a }
  | .warnOnUnrecognizedScript =>
      v.readBoolean.mapRead fun a => { s with warnOnUnrecognizedScript := a }

/-! ## Sources -/

/-- What a field's variable is named by, in small letters. -/
def variableName (f : Field) : String :=
  "sfcplay_" ++ f.name

/-- The last variable that names a field, whatever its capitals. -/
def environmentText? (env : Environment) (f : Field) : Option String :=
  (env.reverse.find? fun e => e.1.toLower == variableName f).map Prod.snd

/-- The value that a variable gives to a field. -/
def ofVariable (f : Field) (s : String) : Value :=
  if f.isList then .ofTexts ((Text.filledPieces ',' s.toList).map String.ofList) else .text s

/-- The value of a field: the given one, or that of its variable. -/
def source? (given : Table String Value) (env : Environment) (f : Field) : Option Value :=
  match given.get? f.name with
  | some v => some v
  | none => (environmentText? env f).map (ofVariable f)

/-- A field from its sources, or its first value. -/
def fromSources {α : Type} (given : Table String Value) (env : Environment) (f : Field)
    (absent : α) (read : Value → Reading α) : Reading α :=
  match source? given env f with
  | some v => (read v).within (.field f.name)
  | none => .ok absent

/-- Settings from given values and the environment. -/
def read (given : Table String Value) (env : Environment) : Reading Settings :=
  let first : Settings := {}
  ((((fromSources given env .directivePrefix first.directivePrefix readPrefix).both
    (fromSources given env .valuelessDirectives first.valuelessDirectives readTexts)).both
    (fromSources given env .setupBindings first.setupBindings readBindings)).both
    (fromSources given env .trustLevel first.trustLevel readTrust)).both
    (fromSources given env .warnOnUnrecognizedScript first.warnOnUnrecognizedScript
      Value.readBoolean) |>.mapRead fun ((((p, v), b), t), w) => ⟨p, v, b, t, w⟩

/-- The settings of an environment alone. -/
def ofEnvironment (env : Environment) : Reading Settings :=
  read [] env

/-! ## Assignment -/

/-- A reading of a field as the outcome of an assignment to it. -/
def assigned (name : String) (r : Reading Settings) : Except AssignmentError Settings :=
  match r.within (.field name) with
  | .ok s => .ok s
  | .error issues => .error (.invalid issues)

/-- The settings after a checked assignment, which is one to a name that is not
reserved. -/
def assign (s : Settings) (name : String) (v : Value) : Except AssignmentError Settings :=
  if isComputedName name then .error (.computed "CompilerSettings" name)
  else
    match Field.ofName? name with
    | some f => assigned name (s.update f v)
    | none => assigned name (Reading.fail (.noSuchField name))

/-- The value of a field. -/
def fieldValue (s : Settings) : Field → Value
  | .directivePrefix => .text s.directivePrefix
  | .valuelessDirectives => .ofTexts s.valuelessDirectives
  | .setupBindings => .ofTexts s.setupBindings
  | .trustLevel => .text s.trustLevel.name
  | .warnOnUnrecognizedScript => .bool s.warnOnUnrecognizedScript

/-- An accepted assignment is the reading that it comes from. -/
theorem eq_ok_of_assigned {name : String} {r : Reading Settings} {s : Settings}
    (h : assigned name r = .ok s) : r = .ok s := by
  cases r <;> simp_all [assigned, Reading.within]

/-- An accepted assignment reads the field of its name anew. -/
theorem exists_update_of_assign {s s' : Settings} {name : String} {v : Value}
    (h : s.assign name v = .ok s') : ∃ f, f.name = name ∧ s.update f v = .ok s' := by
  unfold assign at h
  split at h
  · cases h
  · split at h
    · rename_i f hf
      have hname : f.name = name := by simpa using List.find?_some hf
      exact ⟨f, hname, eq_ok_of_assigned h⟩
    · cases eq_ok_of_assigned h

/-- A field that is read anew leaves every other field as it is. -/
theorem fieldValue_update_of_ne {s s' : Settings} {f : Field} {v : Value}
    (h : s.update f v = .ok s') {g : Field} (hg : g ≠ f) : s'.fieldValue g = s.fieldValue g := by
  cases f <;> obtain ⟨_, _, rfl⟩ := (Reading.mapRead_eq_ok_iff _ _ _).mp h <;> cases g <;>
    first | rfl | exact absurd rfl hg

/-- An accepted assignment keeps the value of every field with another name. -/
theorem assign_other {s s' : Settings} {name : String} {v : Value}
    (h : s.assign name v = .ok s') {g : Field} (hg : g.name ≠ name) :
    s'.fieldValue g = s.fieldValue g := by
  obtain ⟨f, hname, hf⟩ := exists_update_of_assign h
  exact fieldValue_update_of_ne hf fun hgf => hg (hgf ▸ hname)

/-! ## Settings objects -/

/-- The settings as the attributes of an object. -/
def attributes (s : Settings) : Attributes where
  fields := Field.all.map fun f => (f.name, s.fieldValue f)

/-- The value of a field among attributes, in its own kind. -/
def keptValue {α : Type} (a : Attributes) (f : Field) (ofValue? : Value → Option α) :
    Except Field α :=
  match (a.get? f.name).bind ofValue? with
  | some x => .ok x
  | none => .error f

/-- The settings that attributes come to, or the first field that is missing or has a
value of another kind.  No rule of a field is asked about. -/
def ofAttributes (a : Attributes) : Except Field Settings := do
  let directivePrefix ← keptValue a .directivePrefix Value.text?
  let valuelessDirectives ← keptValue a .valuelessDirectives Value.texts?
  let setupBindings ← keptValue a .setupBindings Value.texts?
  let trustLevel ← keptValue a .trustLevel fun v => v.text?.bind TrustLevel.ofName?
  let warnOnUnrecognizedScript ← keptValue a .warnOnUnrecognizedScript Value.bool?
  return ⟨directivePrefix, valuelessDirectives, setupBindings, trustLevel,
    warnOnUnrecognizedScript⟩

/-- The attributes of a settings object after an assignment.  A checked one writes the
field as it is read, over whatever the other fields are by then. -/
def assignAttributes (a : Attributes) (name : String) (v : Value) :
    Except AssignmentError Attributes :=
  if isReservedName name then (reservedEffect "CompilerSettings" name v).map a.apply
  else if isComputedName name then .error (.computed "CompilerSettings" name)
  else
    match a.checkFailure? with
    | some e => .error e
    | none =>
        (({} : Settings).assign name v).map fun s =>
          a.settled.put name ((s.attributes.get? name).getD v)

/-- Settings are told by their attributes. -/
@[simp]
theorem ofAttributes_attributes (s : Settings) : ofAttributes s.attributes = .ok s := by
  have hkept {α : Type} (f : Field) (ofValue? : Value → Option α) :
      keptValue s.attributes f ofValue? =
        match ofValue? (s.fieldValue f) with
        | some x => .ok x
        | none => .error f := by
    cases f <;> rfl
  simp only [ofAttributes, hkept, fieldValue, Value.text?, Value.bool?, Value.texts?_ofTexts,
    Option.bind_some, TrustLevel.ofName?_name]
  rfl

end SingleFile.Settings
