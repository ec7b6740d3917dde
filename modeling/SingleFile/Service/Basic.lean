import SingleFile.Settings.Reading
import SingleFile.Text.Quoted

/-!
# Services

Two services are shared within a process: one holds the settings, and the other
holds a compiler that uses them.  The compiler service depends on the settings
service.  Objects are told apart by their identities, so that two services can
be seen to share an object.

Main results:

- `dependencies_of_dependency`: what a service depends on depends on nothing.
-/

namespace SingleFile

/-- The identity of an object. -/
abbrev ObjectId := Nat

/-- The types of service. -/
inductive ServiceType where
  | settings
  | compiler
deriving DecidableEq, Repr

namespace ServiceType

/-- The name of a type. -/
def name : ServiceType → String
  | settings => "settings_service"
  | compiler => "compiler_service"

/-- The label of a type in messages. -/
def label : ServiceType → String
  | settings => "SETTINGS_SERVICE"
  | compiler => "COMPILER_SERVICE"

/-- The type of a name. -/
def ofName? (s : String) : Option ServiceType :=
  [settings, compiler].find? fun t => t.name == s

@[simp]
theorem ofName?_name (t : ServiceType) : ofName? t.name = some t := by
  cases t <;> decide

/-- The services that a service of this type is made from. -/
def dependencies : ServiceType → List ServiceType
  | settings => []
  | compiler => [settings]

/-- What a service depends on depends on nothing. -/
theorem dependencies_of_dependency {t d : ServiceType} (h : d ∈ t.dependencies) :
    d.dependencies = [] := by
  cases t <;> simp_all [dependencies]

end ServiceType

/-- Holds a settings object. -/
structure SettingsService where
  id : ObjectId
  settings : ObjectId
  isReady : Bool
deriving DecidableEq, Repr

/-- Holds a compiler, the settings object that it uses, and the service that the
settings came from. -/
structure CompilerService where
  id : ObjectId
  settingsService : ObjectId
  compiler : ObjectId
  settings : ObjectId
  isReady : Bool
deriving DecidableEq, Repr

/-- A service of either type. -/
inductive Service where
  | settings (s : SettingsService)
  | compiler (c : CompilerService)
deriving DecidableEq, Repr

namespace Service

/-- The type that a service is of, wherever it is kept. -/
def type : Service → ServiceType
  | settings _ => .settings
  | compiler _ => .compiler

/-- The identity of a service. -/
def id : Service → ObjectId
  | settings s => s.id
  | compiler c => c.id

/-- The service has been made completely. -/
def isReady : Service → Bool
  | settings s => s.isReady
  | compiler c => c.isReady

/-- How messages call a service. -/
def className : Service → String
  | settings _ => "SettingsService"
  | compiler _ => "CompilerService"

end Service

/-- Why a service cannot be had or used. -/
inductive ServiceError where
  /-- No factory makes services of the type. -/
  | noFactory (t : ServiceType)
  /-- No service is kept under the type. -/
  | absent (t : ServiceType)
  /-- The settings do not pass. -/
  | invalidSettings (issues : List Issue)
  /-- An assignment to the settings is refused. -/
  | refused (e : AssignmentError)
  /-- The service that is kept under the type is of the other type. -/
  | missingMember (service : Service) (member : String)
  /-- The name is that of no service type. -/
  | unknownType (name : String)
  /-- The settings in use lack the field, or hold a value of another kind there.  What a use
  of such settings comes to is not told any further. -/
  | unusableSettings (f : Settings.Field)
deriving DecidableEq, Repr

/-- The words for an error. -/
def ServiceError.message : ServiceError → String
  | noFactory t => "No factory registered for the service class '" ++ t.label ++ "'"
  | absent t => "<ServiceType." ++ t.label ++ ": '" ++ t.name ++ "'>"
  | invalidSettings issues => "; ".intercalate (issues.map fun i => i.cause.message)
  | refused e => e.message
  | missingMember service member =>
      "'" ++ service.className ++ "' object has no attribute '" ++ member ++ "'"
  | unknownType name => Text.quoted name ++ " is not a valid ServiceType"
  | unusableSettings f => "'CompilerSettings' object has no attribute '" ++ f.name ++ "'"

/-- The type of a name, or the error that there is none. -/
def ServiceType.ofName (s : String) : Except ServiceError ServiceType :=
  match ofName? s with
  | some t => .ok t
  | none => .error (.unknownType s)

@[simp]
theorem ServiceType.ofName_name (t : ServiceType) : ofName t.name = .ok t := by
  simp [ofName]

end SingleFile
