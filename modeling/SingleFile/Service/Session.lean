import SingleFile.Compile.Basic
import SingleFile.Log.Record
import SingleFile.Service.Basic
import SingleFile.Settings.Reading

/-!
# Sessions

The state of a process as far as services go: the manager's services and
factories, the attributes of the settings objects, the environment, and a journal
of what was reported.  A step gives an outcome and the session after it; a step
that fails keeps what it did before it failed.

A service is made when it is first asked for, after the services it depends on.
There is one factory for each type, and to register it again changes nothing; so
factories are told by their types.  A fallback factory is registered under its
own type and then makes the service that was asked for, whatever its type.

Main results:

- `get_of_has`: a service that is present is given out, and nothing changes.
- `teardown_services`: a teardown leaves no service.
-/

namespace SingleFile

open Log (Record)

/-- Services and factories in the order in which they came in, and everything
that they refer to. -/
structure Session where
  manager : Option ObjectId := none
  services : Table ServiceType Service := []
  factories : List ServiceType := []
  nextId : ObjectId := 0
  settings : Table ObjectId Attributes := []
  environment : Environment := []
  journal : List Record := []

/-- An outcome and the session after it. -/
abbrev Step (α : Type) := Except ServiceError α × Session

namespace Session

/-- Reports an event. -/
def note (s : Session) (event : String) : Session :=
  { s with journal := s.journal ++ [{ event := event }] }

/-! ## The manager and its factories -/

/-- Registers the factory of a type, which may be registered already. -/
def register (s : Session) (t : ServiceType) : Session :=
  { s with factories := if s.factories.contains t then s.factories else s.factories ++ [t] }.note
    ("Registered factory for " ++ t.name)

/-- Registers factories in order. -/
def registerAll (s : Session) (ts : List ServiceType) : Session :=
  ts.foldl register s

/-- Registers the factory of the service that goes by a name; a name that no service
goes by is refused. -/
def registerNamed (s : Session) (name : String) : Step Unit :=
  match ServiceType.ofName name with
  | .error e => (.error e, s)
  | .ok t => (.ok (), s.register t)

/-- A manager of its own: without services, and with both factories. -/
def newManager (s : Session) : Session :=
  let s := { s with
    manager := some s.nextId, services := [], factories := [], nextId := s.nextId + 1 }
  s.registerAll [.settings, .compiler]

/-- The session with a manager; an existing one is kept. -/
def withManager (s : Session) : Session :=
  match s.manager with
  | some _ => s
  | none => s.newManager

/-- Forgets all factories. -/
def clearFactories (s : Session) : Session :=
  { s with factories := [] }

/-! ## Making services -/

/-- The factory of a type makes a service. -/
def make (s : Session) : ServiceType → Step Service
  | .settings =>
      match Settings.ofEnvironment s.environment with
      | .error issues => (.error (.invalidSettings issues), s)
      | .ok contents =>
          (.ok (.settings { id := s.nextId, settings := s.nextId + 1, isReady := true }),
            { s with
              nextId := s.nextId + 2
              settings := s.settings.put (s.nextId + 1) contents.attributes })
  | .compiler =>
      match s.services.get? .settings with
      | some (.settings d) =>
          (.ok (.compiler
            { id := s.nextId, settingsService := d.id, compiler := s.nextId + 1
              settings := d.settings, isReady := true }),
            { s with nextId := s.nextId + 2 })
      | some d => (.error (.missingMember d "settings"), s)
      | none => (.error (.absent .settings), s)

/-- Makes a service by the factory of a type and keeps it under a type. -/
def makeAt (s : Session) (kept made : ServiceType) : Step Unit :=
  match s.make made with
  | (.error e, s) => (.error e, s)
  | (.ok service, s) => (.ok (), { s with services := s.services.put kept service })

/-- Makes a dependency that is missing. -/
def ensure (s : Session) (d : ServiceType) : Step Unit :=
  if s.services.has d then (.ok (), s)
  else
    let s := s.note ("Create service " ++ d.name)
    if s.factories.contains d then s.makeAt d d else (.error (.noFactory d), s)

/-- Makes the dependencies that are missing, in order. -/
def ensureAll (s : Session) : List ServiceType → Step Unit
  | [] => (.ok (), s)
  | d :: ds =>
      match s.ensure d with
      | (.error e, s) => (.error e, s)
      | (.ok (), s) => s.ensureAll ds

/-- Makes a service and what it depends on. -/
def makeWithDependencies (s : Session) (kept made : ServiceType) : Step Unit :=
  match s.ensureAll made.dependencies with
  | (.error e, s) => (.error e, s)
  | (.ok (), s) => s.makeAt kept made

/-- Creates the service that is kept under a type. -/
def create (s : Session) (t : ServiceType) (fallback : Option ServiceType) : Step Unit :=
  let s := s.note ("Create service " ++ t.name)
  if s.factories.contains t then s.makeWithDependencies t t
  else
    match fallback with
    | some made => (s.register made).makeWithDependencies t made
    | none => (.error (.noFactory t), s)

/-! ## Asking for services -/

/-- The service that is kept under a type. -/
def lookup (s : Session) (t : ServiceType) : Except ServiceError Service :=
  match s.services.get? t with
  | some service => .ok service
  | none => .error (.absent t)

/-- The service of a type, created when it is missing. -/
def get (s : Session) (t : ServiceType) (fallback : Option ServiceType := none) : Step Service :=
  if s.services.has t then (s.lookup t, s)
  else
    match s.create t fallback with
    | (.error e, s) => (.error e, s)
    | (.ok (), s) => (s.lookup t, s)

/-- The settings service. -/
def getSettingsService (s : Session) : Step SettingsService :=
  match s.get .settings with
  | (.error e, s) => (.error e, s)
  | (.ok (.settings d), s) => (.ok d, s)
  | (.ok service, s) => (.error (.missingMember service "settings"), s)

/-- The compiler service. -/
def getCompilerService (s : Session) : Step CompilerService :=
  match s.get .compiler with
  | (.error e, s) => (.error e, s)
  | (.ok (.compiler c), s) => (.ok c, s)
  | (.ok service, s) => (.error (.missingMember service "compiler"), s)

/-- The attributes of a settings object. -/
def attributes (s : Session) (settings : ObjectId) : Attributes :=
  (s.settings.get? settings).getD ({} : Settings).attributes

/-- The settings that an object comes to. -/
def contents (s : Session) (settings : ObjectId) : Except ServiceError Settings :=
  match Settings.ofAttributes (s.attributes settings) with
  | .ok contents => .ok contents
  | .error f => .error (.unusableSettings f)

/-- The settings object of the settings service. -/
def getSettings (s : Session) : Step Attributes :=
  match s.getSettingsService with
  | (.error e, s) => (.error e, s)
  | (.ok d, s) => (.ok (s.attributes d.settings), s)

/-- The settings object of the shared compiler. -/
def getCompilerSettings (s : Session) : Step Attributes :=
  match s.getCompilerService with
  | (.error e, s) => (.error e, s)
  | (.ok c, s) => (.ok (s.attributes c.settings), s)

/-- The compiler that a service holds, with the settings as they are now. -/
def compilerOf (s : Session) (c : CompilerService) : Except ServiceError Compiler :=
  (s.contents c.settings).map fun settings => { settings }

/-- The shared compiler. -/
def getCompiler (s : Session) : Step Compiler :=
  match s.getCompilerService with
  | (.error e, s) => (.error e, s)
  | (.ok c, s) => (s.compilerOf c, s)

/-! ## Changing services -/

/-- Assigns to the settings object that the settings service holds. -/
def assignSetting (s : Session) (name : String) (v : Value) : Step Attributes :=
  match s.getSettingsService with
  | (.error e, s) => (.error e, s)
  | (.ok d, s) =>
      match Settings.assignAttributes (s.attributes d.settings) name v with
      | .error e => (.error (.refused e), s)
      | .ok assigned => (.ok assigned, { s with settings := s.settings.put d.settings assigned })

/-- Makes the service of a type again, if there is one. -/
def update (s : Session) (t : ServiceType) : Step Unit :=
  if s.services.has t then
    match { s.note ("Update service " ++ t.name) with services := s.services.erase t }.get t with
    | (.error e, s) => (.error e, s)
    | (.ok _, s) => (.ok (), s)
  else (.ok (), s)

/-- Lets go of every service. -/
def teardown (s : Session) : Session :=
  { s.services.foldl (fun s e => s.note ("Teardown service " ++ e.2.type.name)) s with
    services := [] }

/-! ## Views -/

/-- A service that is present is given out, and nothing changes. -/
theorem get_of_has {s : Session} {t : ServiceType} {service : Service}
    (h : s.services.get? t = some service) (fallback : Option ServiceType) :
    s.get t fallback = (.ok service, s) := by
  simp [get, lookup, Table.has, h]

/-- A teardown leaves no service. -/
@[simp]
theorem teardown_services (s : Session) : s.teardown.services = [] :=
  rfl

/-- The name of a service stands for the factory of its type. -/
@[simp]
theorem registerNamed_name (s : Session) (t : ServiceType) :
    s.registerNamed t.name = (.ok (), s.register t) := by
  simp [registerNamed]

/-- Registering a factory keeps the services. -/
@[simp]
theorem register_services (s : Session) (t : ServiceType) :
    (s.register t).services = s.services :=
  rfl

end Session

end SingleFile
