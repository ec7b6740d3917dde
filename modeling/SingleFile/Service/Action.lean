import SingleFile.Service.Session

/-!
# Actions on a session

Everything that may be asked of the services of a process, with what comes of
it.  An action that fails leaves the session as far as it came, and the next
action goes on from there.

Main results:

- `shown_attributes`: an object of settings is shown as these settings.
- `mapOutcome_snd`: an outcome is drawn from a step without changing the session.
-/

namespace SingleFile

/-- What may be asked of the services. -/
inductive Action where
  /-- The manager. -/
  | manager
  /-- A manager of its own in place of the present one. -/
  | newManager
  /-- Variables are set, or unset. -/
  | setEnvironment (changes : List (String × Option String))
  /-- The shared compiler. -/
  | getCompiler
  /-- The service of a type, by the factory of the fallback when it has none. -/
  | get (t : ServiceType) (fallback : Option ServiceType)
  /-- A setting is assigned. -/
  | assignSetting (name : String) (v : Value)
  /-- The settings of the settings service. -/
  | showSettings
  /-- The settings of the shared compiler. -/
  | showCompilerSettings
  /-- The shared compiler compiles a template, a script and a style. -/
  | compile (template script style : Value)
  /-- The shared compiler compiles a template and a script. -/
  | compileTemplate (template script : Value)
  /-- The shared compiler checks a template. -/
  | checkTemplate (template : Value)
  /-- The service of a type is made again. -/
  | update (t : ServiceType)
  /-- Every service is let go of. -/
  | teardown
  /-- The service of a type is given a teardown of its own. -/
  | replaceTeardown (t : ServiceType)
  /-- All factories are forgotten. -/
  | clearFactories
  /-- Factories are registered. -/
  | register (ts : List ServiceType)

/-- What comes of an action. -/
inductive Outcome where
  | done
  | manager (id : ObjectId)
  | compiler (id : ObjectId)
  | service (s : Service)
  | settings (s : Settings)
  /-- A settings object that comes to no settings. -/
  | attributes (a : Attributes)
  | result (r : CompileResult)
  | faults (fs : List Template.Fault)

namespace Session

/-- How a settings object is shown. -/
def shown (a : Attributes) : Outcome :=
  match Settings.ofAttributes a with
  | .ok settings => .settings settings
  | .error _ => .attributes a

/-- An outcome of a step that succeeds. -/
def mapOutcome {α β : Type} (f : α → β) : Step α → Step β
  | (.error e, s) => (.error e, s)
  | (.ok a, s) => (.ok (f a), s)

/-- The environment after variables are set, or unset. -/
def assignEnvironment (env : Environment) (changes : List (String × Option String)) :
    Environment :=
  changes.foldl (fun env (name, v) => env.assign name v) env

/-- What comes of an action when there is a manager. -/
def performWith (s : Session) : Action → Step Outcome
  | .manager => (.ok (.manager (s.manager.getD s.nextId)), s)
  | .newManager =>
      let s := s.newManager
      (.ok (.manager (s.manager.getD s.nextId)), s)
  | .setEnvironment changes =>
      (.ok .done, { s with environment := assignEnvironment s.environment changes })
  | .getCompiler => mapOutcome (fun c => .compiler c.compiler) s.getCompilerService
  | .get t fallback => mapOutcome .service (s.get t fallback)
  | .assignSetting name v => mapOutcome shown (s.assignSetting name v)
  | .showSettings => mapOutcome shown s.getSettings
  | .showCompilerSettings => mapOutcome shown s.getCompilerSettings
  | .compile template script style =>
      mapOutcome (fun k => .result (k.compile template script style)) s.getCompiler
  | .compileTemplate template script =>
      mapOutcome (fun k => .result (k.compileTemplate template script)) s.getCompiler
  | .checkTemplate template =>
      mapOutcome (fun k => .faults (Template.faults k.settings template)) s.getCompiler
  | .update t => mapOutcome (fun () => .done) (s.update t)
  | .teardown => (.ok .done, s.teardown)
  | .replaceTeardown t =>
      match s.lookup t with
      | .error e => (.error e, s)
      | .ok _ => (.ok .done, s)
  | .clearFactories => (.ok .done, s.clearFactories)
  | .register ts => (.ok .done, s.registerAll ts)

/-- What comes of an action; the manager is made when there is none. -/
def perform (s : Session) (a : Action) : Step Outcome :=
  s.withManager.performWith a

/-- The session after actions. -/
def after (s : Session) (as : List Action) : Session :=
  as.foldl (fun s a => (s.perform a).2) s

/-! ## Views -/

/-- An object of settings is shown as these settings. -/
@[simp]
theorem shown_attributes (settings : Settings) : shown settings.attributes = .settings settings := by
  simp [shown]

/-- An outcome is drawn from a step without changing the session. -/
@[simp]
theorem mapOutcome_snd {α β : Type} (f : α → β) (r : Step α) : (mapOutcome f r).2 = r.2 := by
  obtain ⟨_ | _, _⟩ := r <;> rfl

/-- The outcome is that of the step under the map, or its error. -/
theorem mapOutcome_fst {α β : Type} (f : α → β) (r : Step α) :
    (mapOutcome f r).1 = r.1.map f := by
  obtain ⟨_ | _, _⟩ := r <;> rfl

/-- No actions change nothing. -/
@[simp]
theorem after_nil (s : Session) : s.after [] = s :=
  rfl

/-- Actions are taken one after the other. -/
@[simp]
theorem after_cons (s : Session) (a : Action) (as : List Action) :
    s.after (a :: as) = (s.perform a).2.after as :=
  rfl

end Session

end SingleFile
