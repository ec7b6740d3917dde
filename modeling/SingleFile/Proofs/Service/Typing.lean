import SingleFile.Proofs.Service.Keeping
import SingleFile.Proofs.Service.Sharing

/-!
# Services under their own types

A factory makes services of the type that it is registered under, and a service is kept
under its own type, with one exception: a fallback factory makes what was asked for,
whatever its type.  A settings service is kept in the place of the compiler service when
the compiler service is asked for with the factory of the settings service as fallback
while neither it nor its own factory is there.  It stays there until something lets go of
the compiler service.

Main results:

- Theorem `maker_of_get`: which factory a service was made by that came to be kept.
- Theorem `misplaced_after_iff`: when a settings service is in the place of the compiler
  service.
- Theorem `services_typed_iff`: all services of a run are ready, and of the type that they
  are kept under unless this happened; then a compiler service is always given out when
  one is asked for.
- Theorem `services_mistyped`: a settings service that is given out as the compiler
  service.
-/

namespace SingleFile

namespace Session

/-! ## What a factory makes -/

/-- A service is ready when it has been made. -/
theorem isReady_of_make {s s' : Session} {t : ServiceType} {service : Service}
    (h : s.make t = (.ok service, s')) : service.isReady = true := by
  rw [← markReady_of_make h]
  exact conventions.isReady_markReady service

/-- A service that came to be kept while a service was asked for is ready.  It was made by
the factory that is registered for its place, or, being asked for, by the fallback; and a
factory does not make the service that it depends on. -/
theorem maker_of_get {s : Session} {t k : ServiceType} {fallback : Option ServiceType}
    {service : Service} (hnone : s.services.get? k = none)
    (h : (s.get t fallback).2.services.get? k = some service) :
    service.isReady = true ∧
      (k ∈ s.factories ∧ service.type = k ∨
        k = t ∧ t ∉ s.factories ∧ fallback = some service.type ∧
          k ∉ service.type.dependencies) := by
  have hbuilt := Manager.built_get (Manager.ofSession s) t (fallback.map ServiceType.factory)
  rw [Manager.get_ofSession] at hbuilt
  obtain ⟨added, hadded, hnodup, hnew, hmade⟩ := hbuilt.exists_added
  have hservices : (s.get t fallback).2.services = s.services ++ added := hadded
  rw [hservices, Table.get?_append, hnone, Option.none_or] at h
  obtain ⟨before, behind, rfl⟩ := List.append_of_mem (Table.mem_of_get? h)
  obtain ⟨hready, f, hf, hdeps, given, w, x, w', _, _, hcreate, rfl⟩ :=
    hmade before k service behind rfl
  refine ⟨hready, ?_⟩
  rcases hf with hf | ⟨rfl, hnofactory, hfallback⟩
  · have hregistered : (Manager.factoriesOf s.factories).get? k = some f := hf
    rw [Manager.get?_factoriesOf] at hregistered
    split at hregistered
    · rename_i hmem
      cases hregistered
      exact .inl ⟨hmem, x.type_markReady.trans (ServiceType.type_of_create hcreate)⟩
    · cases hregistered
  · obtain ⟨u, hu, rfl⟩ := Option.map_eq_some_iff.mp hfallback
    have htype : x.markReady.type = u :=
      x.type_markReady.trans (ServiceType.type_of_create hcreate)
    have hmem : k ∉ s.factories := by
      intro hmem
      have hregistered : (Manager.factoriesOf s.factories).get? k = none := hnofactory
      simp [Manager.get?_factoriesOf, hmem] at hregistered
    refine .inr ⟨rfl, hmem, hu.trans (congrArg some htype.symm), fun hdep => ?_⟩
    have hthere : k ∈ (s.services ++ before).keys := hdeps k (htype ▸ hdep)
    rw [Table.keys, List.map_append, List.mem_append] at hthere
    rcases hthere with hthere | hthere
    · exact (Table.get?_eq_none_iff _ _).mp hnone hthere
    · rw [Table.keys, List.map_append, List.nodup_append] at hnodup
      exact hnodup.2.2 k hthere k (by simp) rfl

/-! ## What actions ask for -/

/-- The service that an action asks for when there is a manager, and the fallback. -/
def asks (s : Session) : Action → Option (ServiceType × Option ServiceType)
  | .getCompiler | .showCompilerSettings | .compile .. | .compileTemplate .. |
      .checkTemplate .. => some (.compiler, none)
  | .get t fallback => some (t, fallback)
  | .assignSetting .. | .showSettings => some (.settings, none)
  | .update t => if s.services.has t then some (t, none) else none
  | _ => none

/-- Registering factories makes no service. -/
theorem services_registerAll (s : Session) (ts : List ServiceType) :
    (s.registerAll ts).services = s.services := by
  induction ts generalizing s with
  | nil => rfl
  | cons t ts ih => exact (ih (s.register t)).trans (s.register_services t)

/-- An action keeps what it has not let go of, and adds what comes of the service that it
asks for. -/
theorem services_performWith (s : Session) (a : Action) :
    match s.asks a with
    | none => (s.performWith a).2.services = (s.letGo a).services
    | some (t, fallback) =>
        ∃ s₁ : Session, s₁.services = (s.letGo a).services ∧ s₁.factories = s.factories ∧
          (s.performWith a).2.services = (s₁.get t fallback).2.services := by
  cases a with
  | manager => rfl
  | newManager => rfl
  | setEnvironment changes => rfl
  | getCompiler =>
      refine ⟨s, rfl, rfl, ?_⟩
      simp only [performWith, mapOutcome_snd, getCompilerService_snd]
  | get t fallback =>
      refine ⟨s, rfl, rfl, ?_⟩
      simp only [performWith, mapOutcome_snd]
  | assignSetting name v =>
      refine ⟨s, rfl, rfl, ?_⟩
      rw [← getSettingsService_snd]
      simp only [performWith, mapOutcome_snd, assignSetting]
      rcases s.getSettingsService with ⟨_ | d, s₁⟩
      · rfl
      · simp only
        split <;> rfl
  | showSettings =>
      refine ⟨s, rfl, rfl, ?_⟩
      simp only [performWith, mapOutcome_snd, getSettings_snd]
  | showCompilerSettings =>
      refine ⟨s, rfl, rfl, ?_⟩
      simp only [performWith, mapOutcome_snd, getCompilerSettings_snd]
  | compile template script style =>
      refine ⟨s, rfl, rfl, ?_⟩
      simp only [performWith, mapOutcome_snd, getCompiler_snd]
  | compileTemplate template script =>
      refine ⟨s, rfl, rfl, ?_⟩
      simp only [performWith, mapOutcome_snd, getCompiler_snd]
  | checkTemplate template =>
      refine ⟨s, rfl, rfl, ?_⟩
      simp only [performWith, mapOutcome_snd, getCompiler_snd]
  | update t =>
      simp only [performWith, mapOutcome_snd, asks]
      by_cases hhas : s.services.has t = true
      · rw [if_pos hhas]
        exact ⟨{ s.note ("Update service " ++ t.name) with services := s.services.erase t },
          rfl, rfl, by rw [update_snd hhas]⟩
      · have hfree : s.services.get? t = none := by simpa [Table.has] using hhas
        rw [if_neg hhas, update, if_neg hhas]
        exact (Table.erase_of_get?_eq_none hfree).symm
  | teardown => rfl
  | replaceTeardown t =>
      show (s.performWith (.replaceTeardown t)).2.services = s.services
      simp only [performWith]
      split <;> rfl
  | clearFactories => rfl
  | register ts => exact services_registerAll s ts

/-- Only to ask with a fallback passes one on. -/
theorem eq_get_of_asks {s : Session} {a : Action} {t u : ServiceType}
    (h : s.asks a = some (t, some u)) : a = .get t (some u) := by
  cases a with
  | get t' fallback =>
      cases h
      rfl
  | update t' =>
      simp only [asks] at h
      split at h <;> cases h
  | _ => cases h

/-- What is kept after an action was kept when it had let go, or is ready and of its own
type, or is a settings service that was asked for as the compiler service. -/
theorem kept_or_typed {s : Session} {a : Action} {t : ServiceType} {service : Service}
    (h : (s.performWith a).2.services.get? t = some service) :
    (s.letGo a).services.get? t = some service ∨
      service.isReady = true ∧ (service.type = t ∨
        t = .compiler ∧ service.type = .settings ∧ a = .get .compiler (some .settings) ∧
          .compiler ∉ s.factories) := by
  have hservices := s.services_performWith a
  cases hasks : s.asks a with
  | none =>
      rw [hasks] at hservices
      rw [hservices] at h
      exact .inl h
  | some asked =>
      obtain ⟨u, fallback⟩ := asked
      rw [hasks] at hservices
      obtain ⟨s₁, hkept, hfactories, hget⟩ := hservices
      rw [hget] at h
      rw [← hkept]
      cases hbefore : s₁.services.get? t with
      | some service' =>
          rw [(s₁.grows_get u fallback).get? hbefore] at h
          exact .inl h
      | none =>
          obtain ⟨hready, hmaker⟩ := maker_of_get hbefore h
          refine .inr ⟨hready, ?_⟩
          rcases hmaker with ⟨_, htype⟩ | ⟨rfl, hmem, rfl, hdeps⟩
          · exact .inl htype
          · rw [hfactories] at hmem
            have ha := eq_get_of_asks hasks
            cases t <;> cases htype : service.type <;> rw [htype] at ha hdeps
            · exact .inl rfl
            · exact absurd List.mem_cons_self hdeps
            · exact .inr ⟨rfl, rfl, ha, hmem⟩
            · exact .inl rfl

/-! ## Misplaced services -/

/-- A settings service is in the place of the compiler service. -/
def Misplaced (s : Session) : Prop :=
  ∃ d, s.services.get? .compiler = some (.settings d)

/-- The compiler service is asked for, with the factory of the settings service as
fallback, while neither it nor its own factory is there, and the settings can be read. -/
def Misplaces (s : Session) (a : Action) : Prop :=
  a = .get .compiler (some .settings) ∧ s.withManager.services.get? .compiler = none ∧
    .compiler ∉ s.withManager.factories ∧
      ∃ contents, Settings.ofEnvironment s.withManager.environment = .ok contents

/-- Asked for the compiler with the settings as its fallback, a manager without a factory
for the compiler keeps a settings service in its place. -/
theorem services_get_compiler_settings {s : Session} (hfree : s.services.get? .compiler = none)
    (hfactory : .compiler ∉ s.factories) :
    (s.get .compiler (some .settings)).2.services =
      match Settings.ofEnvironment s.environment with
      | .error _ => s.services
      | .ok _ => s.services.put .compiler
          (.settings { id := s.nextId, settings := s.nextId + 1, isReady := true }) := by
  cases hread : Settings.ofEnvironment s.environment <;>
    simp [get, Table.has, hfree, create, note, hfactory, register, makeWithDependencies,
      ServiceType.dependencies, ensureAll, makeAt, make, hread]

/-- Asking for a service makes a manager first, where there is none. -/
theorem services_perform_get (s : Session) (t : ServiceType) (fallback : Option ServiceType) :
    (s.perform (.get t fallback)).2.services = (s.withManager.get t fallback).2.services := by
  simp only [perform, performWith, mapOutcome_snd]

/-- What is kept when an action has let go, with the manager, is kept without. -/
theorem get?_letGo_of_withManager {s : Session} {a : Action} {t : ServiceType}
    {service : Service} (h : (s.withManager.letGo a).services.get? t = some service) :
    (s.letGo a).services.get? t = some service := by
  cases hm : s.manager with
  | some id =>
      have hsame : s.withManager = s := by simp [withManager, hm]
      rwa [hsame] at h
  | none =>
      have hnew : s.withManager = s.newManager := by simp [withManager, hm]
      rw [hnew] at h
      cases get?_of_get?_letGo h

/-- A settings service comes into the place of the compiler service in one way, and stays
there until something lets go of the compiler service. -/
theorem misplaced_perform_iff {s : Session} (hs : s.Sound) (a : Action) :
    (s.perform a).2.Misplaced ↔ s.Misplaces a ∨ s.Misplaced ∧ ¬ s.LosesCompiler a := by
  constructor
  · rintro ⟨d, hd⟩
    have hstays : (s.withManager.letGo a).services.get? .compiler = some (.settings d) →
        s.Misplaced ∧ ¬ s.LosesCompiler a := by
      intro hkept
      replace hkept := get?_letGo_of_withManager hkept
      refine ⟨⟨d, get?_of_get?_letGo hkept⟩, fun hloses => ?_⟩
      rw [get?_letGo_of_losesCompiler hloses] at hkept
      cases hkept
    rcases kept_or_typed hd with hkept | ⟨_, htype | ⟨_, _, rfl, hmem⟩⟩
    · exact .inr (hstays hkept)
    · cases htype
    · rw [services_perform_get] at hd
      cases hbefore : s.withManager.services.get? .compiler with
      | some service =>
          rw [(s.withManager.grows_get _ _).get? hbefore] at hd
          exact .inr (hstays (hbefore.trans hd))
      | none =>
          rw [services_get_compiler_settings hbefore hmem] at hd
          cases hread : Settings.ofEnvironment s.withManager.environment with
          | error issues =>
              rw [hread, hbefore] at hd
              cases hd
          | ok contents => exact .inl ⟨rfl, hbefore, hmem, contents, hread⟩
  · rintro (⟨rfl, hfree, hmem, contents, hread⟩ | ⟨⟨d, hd⟩, hnot⟩)
    · have hservices := services_get_compiler_settings hfree hmem
      rw [hread, ← services_perform_get] at hservices
      exact ⟨_, by rw [hservices]; exact Table.get?_put_self _ _ _⟩
    · exact ⟨d, (perform_grows hs a).get? (get?_letGo_of_not_losesCompiler hnot hd)⟩

/-- Behind a run a settings service is in the place of the compiler service when it was
there before, or came there, and nothing has let go of the compiler service since. -/
theorem misplaced_after_iff {s : Session} (hs : s.Sound) (as : List Action) :
    (s.after as).Misplaced ↔
      s.Misplaced ∧ ¬ s.Happens LosesCompiler as ∨
        s.HappensSince Misplaces LosesCompiler as := by
  induction as generalizing s with
  | nil => simp [not_happens_nil, not_happensSince_nil]
  | cons a as ih =>
      rw [after_cons, ih (hs.perform a), misplaced_perform_iff hs, happens_cons_iff,
        happensSince_cons_iff, not_or]
      constructor
      · rintro (⟨hplaces | ⟨hplaced, ha⟩, has⟩ | hsince)
        · exact .inr (.inl ⟨hplaces, has⟩)
        · exact .inl ⟨hplaced, ha, has⟩
        · exact .inr (.inr hsince)
      · rintro (⟨hplaced, ha, has⟩ | ⟨hplaces, has⟩ | hsince)
        · exact .inl ⟨.inr ⟨hplaced, ha⟩, has⟩
        · exact .inl ⟨.inl hplaces, has⟩
        · exact .inr hsince

/-! ## The law -/

/-- Every service that is kept is ready, and of the type that it is kept under unless it is
a settings service in the place of the compiler service. -/
def Typed (s : Session) : Prop :=
  ∀ t service, s.services.get? t = some service →
    service.isReady = true ∧ (service.type = t ∨ t = .compiler ∧ service.type = .settings)

/-- Every action keeps a session typed. -/
theorem Typed.perform {s : Session} (h : s.Typed) (a : Action) : (s.perform a).2.Typed := by
  intro t service hkept
  rcases kept_or_typed hkept with hkept | ⟨hready, htype | ⟨ht, htype, _⟩⟩
  · exact h t service (get?_of_get?_letGo (get?_letGo_of_withManager hkept))
  · exact ⟨hready, .inl htype⟩
  · exact ⟨hready, .inr ⟨ht, htype⟩⟩

/-- A session is typed behind every run from the start. -/
theorem typed_after (env : Environment) (as : List Action) : ((initial env).after as).Typed := by
  suffices h : ∀ s : Session, s.Typed → (s.after as).Typed from
    h _ fun t service hkept => by cases hkept
  induction as with
  | nil => exact fun _ h => h
  | cons a as ih => exact fun s h => ih _ (h.perform a)

/-- In a typed session every service is of its type unless one is misplaced. -/
theorem Typed.forall_type_iff {s : Session} (h : s.Typed) :
    (∀ t service, s.services.get? t = some service → service.type = t) ↔ ¬ s.Misplaced := by
  constructor
  · rintro htypes ⟨d, hd⟩
    cases htypes .compiler _ hd
  · intro hnot t service hkept
    rcases (h t service hkept).2 with htype | ⟨rfl, htype⟩
    · exact htype
    · cases service with
      | settings d => exact absurd ⟨d, hkept⟩ hnot
      | compiler c => cases htype

/-- Whoever asks for the compiler service is given one, if anything, exactly when no settings
service is in its place. -/
theorem type_of_get_compiler_iff {s : Session} (hs : s.Sound) :
    (∀ service, (s.perform (.get .compiler none)).1 = .ok (.service service) →
      service.type = .compiler) ↔ ¬ s.Misplaced := by
  constructor
  · rintro htypes ⟨d, hd⟩
    obtain ⟨id, hm⟩ := hs.exists_manager hd
    have hgiven : (s.perform (.get .compiler none)).1 = .ok (.service (.settings d)) := by
      rw [perform_of_managed hm, performWith, get_of_has hd]
      rfl
    cases htypes _ hgiven
  · intro hnot service hgiven
    have hnext : ¬ (s.perform (.get .compiler none)).2.Misplaced := by
      rw [misplaced_perform_iff hs]
      rintro (⟨ha, _⟩ | ⟨hmisplaced, _⟩)
      · cases ha
      · exact hnot hmisplaced
    simp only [perform, performWith, mapOutcome_fst, mapOutcome_snd] at hgiven hnext
    cases hget : s.withManager.get .compiler none with
    | mk outcome s₁ =>
        rw [hget] at hgiven hnext
        cases outcome with
        | error e => cases hgiven
        | ok service' =>
            cases hgiven
            cases service with
            | settings d => exact absurd ⟨d, get_eq_ok hget⟩ hnext
            | compiler c => rfl

/-- In every session of a run the factories make ready services of their own types, and all
services that are kept are ready.  They are of the types that they are kept under, and
whoever asks for the compiler service is given one, if anything, exactly when no settings
service came into the place of the compiler service and was not let go of since. -/
theorem services_typed_iff (env : Environment) (as : List Action) :
    let s := (initial env).after as
    let misplaced := (initial env).HappensSince Misplaces LosesCompiler as
    (∀ t service s', s.make t = (.ok service, s') →
      service.type = t ∧ service.isReady = true) ∧
    (∀ t service, s.services.get? t = some service →
      service.isReady = true ∧ (service.type = t ∨ t = .compiler ∧ service.type = .settings)) ∧
    ((∀ t service, s.services.get? t = some service → service.type = t) ↔ ¬ misplaced) ∧
    ((∀ service, (s.perform (.get .compiler none)).1 = .ok (.service service) →
      service.type = .compiler) ↔ ¬ misplaced) := by
  intro s misplaced
  have htyped : s.Typed := typed_after env as
  have hmisplaced : s.Misplaced ↔ misplaced := by
    have hnot : ¬ (initial env).Misplaced := fun ⟨_, hd⟩ => by cases hd
    simp [s, misplaced, misplaced_after_iff (sound_initial env) as, hnot]
  refine ⟨fun t service s' h => ⟨(make_eq_ok h).type, isReady_of_make h⟩, htyped, ?_, ?_⟩
  · rw [htyped.forall_type_iff, hmisplaced]
  · rw [type_of_get_compiler_iff (sound_after env as), hmisplaced]

/-- A settings service in the place of the compiler service is gone when that is made
again. -/
theorem services_typed_again :
    let as : List Action := [.clearFactories, .get .compiler (some .settings),
      .register [.compiler], .update .compiler]
    let s := (initial []).after as
    s.services.keys = [.settings, .compiler] ∧
      ∀ t service, s.services.get? t = some service → service.type = t := by
  intro as s
  have hnot : ¬ (initial []).HappensSince Misplaces LosesCompiler as := by
    intro hsince
    obtain ⟨d, hd⟩ := (misplaced_after_iff (sound_initial []) as).mpr (.inr hsince)
    cases hd
  exact ⟨rfl, (services_typed_iff [] as).2.2.1.mpr hnot⟩

/-- Asked for with the factory of the settings service as fallback, the compiler service is
a settings service from then on, which has no compiler to give out. -/
theorem services_mistyped :
    let s := (initial []).after [.clearFactories, .get .compiler (some .settings)]
    let misplaced : Service := .settings ⟨1, 2, true⟩
    s.services = [(.compiler, misplaced)] ∧ misplaced.type = .settings ∧
      (s.perform (.get .compiler none)).1 = .ok (.service misplaced) ∧
      (s.perform .getCompiler).1 = .error (.missingMember misplaced "compiler") := by
  exact ⟨rfl, rfl, rfl, rfl⟩

end Session

end SingleFile
