import SingleFile.Proofs.Service.Growth
import SingleFile.Proofs.Service.Manager

/-!
# What asking for a service keeps

The manager of a session is one with two factories, of which that of the compiler service
depends on the settings service.  What holds of managers with any factories holds of it:
asking for a service keeps every service that is there where it is, and adds what is
missing of the service and of what it depends on.

Main results:

- Theorem `get_ofSession`: the manager of a session gives out what the session does, and
  goes on as the session does.
- Theorem `get_keeps`: what asking for a service leaves as it is, what it adds, and that
  asking again changes nothing.
-/

namespace SingleFile

/-! ## The manager of a session -/

/-- The service when it has been made completely. -/
def Service.markReady : Service → Service
  | settings d => settings { d with isReady := true }
  | compiler c => compiler { c with isReady := true }

@[simp]
theorem Service.type_markReady (x : Service) : x.markReady.type = x.type := by
  cases x <;> rfl

/-- A service that a factory makes is ready. -/
theorem Session.markReady_of_make {s s' : Session} {t : ServiceType} {x : Service}
    (h : s.make t = (.ok x, s')) : x.markReady = x := by
  cases t with
  | settings =>
      simp only [make] at h
      split at h
      · cases h
      · cases h
        rfl
  | compiler =>
      simp only [make] at h
      split at h
      · cases h
        rfl
      · cases h
      · cases h

/-- What a session says of its services.  A session stands for the surroundings of its
manager. -/
def Session.conventions : Conventions ServiceType Service ServiceError Session where
  rank
    | .settings => 0
    | .compiler => 1
  isReady := Service.isReady
  markReady := Service.markReady
  isReady_markReady x := by cases x <;> rfl
  noFactory := .noFactory
  absent := .absent
  noteCreation t s := s.note ("Create service " ++ t.name)
  noteFactory t s := s.note ("Registered factory for " ++ t.name)

/-- The factory of a type, as one that is handed services. -/
def ServiceType.factory (t : ServiceType) : Factory Session.conventions where
  type := t
  dependencies := t.dependencies
  create services world :=
    match { world with services }.make t with
    | (outcome, world) => (outcome, { world with services := [] })
  rank_lt d hd := by
    cases t with
    | settings => cases hd
    | compiler =>
        rw [List.mem_singleton.mp hd]
        decide

/-- The factory of a type makes services of the type. -/
theorem ServiceType.type_of_create {t : ServiceType} {services : Table ServiceType Service}
    {w w' : Session} {x : Service} (h : t.factory.create services w = (.ok x, w')) :
    x.type = t := by
  cases hmake : ({ w with services } : Session).make t with
  | mk outcome s =>
      simp only [factory, hmake] at h
      cases h
      exact (Session.make_eq_ok hmake).type

/-- The surroundings of the manager of a session. -/
def Session.surroundings (s : Session) : Session :=
  { s with services := [], factories := [] }

namespace Manager

/-- The factories of some types. -/
def factoriesOf (ts : List ServiceType) : Table ServiceType (Factory Session.conventions) :=
  ts.map fun t => (t, t.factory)

/-- Each registered type has its own factory, and no other type has one. -/
theorem get?_factoriesOf (ts : List ServiceType) (t : ServiceType) :
    (factoriesOf ts).get? t = if t ∈ ts then some t.factory else none := by
  induction ts with
  | nil => rfl
  | cons u ts ih =>
      by_cases hu : u = t
      · subst hu
        simp [factoriesOf, Table.get?]
      · have hstep : (factoriesOf (u :: ts)).get? t = (factoriesOf ts).get? t := by
          simp [factoriesOf, Table.get?, hu]
        simp [hstep, ih, Ne.symm hu]

/-- The manager of a session. -/
def ofSession (s : Session) : Manager Session.conventions where
  services := s.services
  factories := factoriesOf s.factories
  type_eq := by
    intro t f hf
    rw [get?_factoriesOf] at hf
    split at hf
    · cases hf
      rfl
    · cases hf
  world := s.surroundings

@[simp]
theorem services_ofSession (s : Session) : (ofSession s).services = s.services :=
  rfl

/-- An outcome of a session as one of its manager. -/
def ofStep {α : Type} (r : Step α) : Except ServiceError α × Manager Session.conventions :=
  (r.1, ofSession r.2)

/-- The note of a creation is the same seen from either side. -/
theorem noteCreation_ofSession (s : Session) (t : ServiceType) :
    (ofSession s).noteCreation t = ofSession (s.note ("Create service " ++ t.name)) :=
  rfl

/-- A type that is registered again keeps its place among the factories. -/
theorem put_factoriesOf (ts : List ServiceType) (t : ServiceType) :
    (factoriesOf ts).put t t.factory =
      factoriesOf (if ts.contains t then ts else ts ++ [t]) := by
  induction ts with
  | nil => rfl
  | cons u ts ih =>
      by_cases hu : u = t
      · subst hu
        simp [factoriesOf, Table.put]
      · have hstep : (factoriesOf (u :: ts)).put t t.factory =
            (u, u.factory) :: (factoriesOf ts).put t t.factory := by
          simp [factoriesOf, Table.put, hu]
        rw [hstep, ih]
        by_cases ht : t ∈ ts <;> simp [factoriesOf, ht, Ne.symm hu]

/-- Registering in a session is registering in its manager. -/
theorem register_ofSession (s : Session) (t : ServiceType) :
    (ofSession s).register t.factory = ofSession (s.register t) := by
  ext1
  · rfl
  · exact put_factoriesOf s.factories t
  · rfl

/-- The factory of the manager makes of the services that it is handed what that of the
session makes of all services. -/
theorem create_factory (s : Session) (t : ServiceType) :
    t.factory.create (handed s.services t.dependencies) s.surroundings =
      ((s.make t).1, (s.make t).2.surroundings) := by
  cases t with
  | settings =>
      simp only [ServiceType.factory, Session.make, Session.surroundings]
      cases Settings.ofEnvironment s.environment <;> rfl
  | compiler =>
      simp only [ServiceType.factory, Session.make, Session.surroundings, handed,
        ServiceType.dependencies, List.filterMap_cons, List.filterMap_nil]
      rcases s.services.get? .settings with _ | (d | c) <;> rfl

/-- Making a service in a session is keeping what its factory makes in the manager. -/
theorem keep_ofSession (s : Session) (k t : ServiceType) :
    (ofSession s).keep k t.factory = ofStep (s.makeAt k t) := by
  have hcreate : t.factory.create (handed (ofSession s).services t.factory.dependencies)
      (ofSession s).world = _ := create_factory s t
  unfold keep Session.makeAt
  rw [hcreate]
  cases hmake : s.make t with
  | mk outcome s₁ =>
      cases outcome with
      | error e =>
          rw [Session.make_eq_error hmake]
          rfl
      | ok x =>
          have hyields := Session.make_eq_ok hmake
          have hready : Session.conventions.markReady x = x := Session.markReady_of_make hmake
          refine Prod.ext rfl (Manager.ext ?_ ?_ rfl)
          · simp only [ofStep, ofSession, hready, hyields.services]
          · simp only [ofStep, ofSession, hyields.factories]

/-- A service that depends on nothing is built at once. -/
theorem build_of_dependencies_eq_nil (s : Session) (k : ServiceType) {t : ServiceType}
    (ht : t.dependencies = []) : (ofSession s).build k t.factory = ofStep (s.makeAt k t) := by
  have hnone : ∀ ds (h : ds ⊆ t.factory.dependencies), ds = [] →
      (ofSession s).ensureAll t.factory ds h = (.ok (), ofSession s) := by
    rintro ds h rfl
    rw [ensureAll]
  have hdependencies : t.factory.dependencies = [] := ht
  rw [build, hnone _ _ hdependencies]
  exact keep_ofSession s k t

/-- A dependency without dependencies of its own is made alike in a session and in its
manager. -/
theorem ensure_ofSession (s : Session) {d : ServiceType} (hd : d.dependencies = []) :
    (ofSession s).ensure d = ofStep (s.ensure d) := by
  have hfactory : (ofSession s).factories.get? d =
      if d ∈ s.factories then some d.factory else none := get?_factoriesOf s.factories d
  rw [ensure, services_ofSession]
  rcases s.ensure_cases d with ⟨he, hhas⟩ | ⟨hfree, hrest⟩
  · rw [if_pos hhas, he]
    rfl
  · have hhas : ¬ s.services.has d = true := by simp [Table.has, hfree]
    rw [if_neg hhas]
    rcases hrest with ⟨hmem, he⟩ | ⟨hmem, he⟩ <;> rw [he] <;> split <;> rename_i hf <;>
      rw [hfactory] at hf
    · rfl
    · simp [hmem] at hf
    · simp [hmem] at hf
    · rw [if_pos hmem] at hf
      cases hf
      rw [noteCreation_ofSession, build_of_dependencies_eq_nil _ _ hd]

/-- All dependencies of a factory are made alike in a session and in its manager. -/
theorem ensureAll_ofSession (s : Session) (t : ServiceType) (ds : List ServiceType)
    (h : ds ⊆ t.factory.dependencies) :
    (ofSession s).ensureAll t.factory ds h = ofStep (s.ensureAll ds) := by
  induction ds generalizing s with
  | nil =>
      rw [ensureAll]
      rfl
  | cons d ds ih =>
      have hd : d.dependencies = [] :=
        ServiceType.dependencies_of_dependency (h List.mem_cons_self)
      rw [ensureAll, ensure_ofSession s hd, Session.ensureAll]
      rcases s.ensure d with ⟨_ | _, s₁⟩
      · rfl
      · exact ih s₁ _

/-- A service is made with its dependencies alike in a session and in its manager. -/
theorem build_ofSession (s : Session) (k t : ServiceType) :
    (ofSession s).build k t.factory = ofStep (s.makeWithDependencies k t) := by
  rw [build, ensureAll_ofSession, Session.makeWithDependencies]
  have hsame : t.factory.dependencies = t.dependencies := rfl
  rw [hsame]
  rcases s.ensureAll t.dependencies with ⟨_ | _, s₁⟩
  · rfl
  · exact keep_ofSession s₁ k t

/-- A service is created alike in a session and in its manager, also from a fallback
factory. -/
theorem create_ofSession (s : Session) (t : ServiceType) (fallback : Option ServiceType) :
    (ofSession s).create t (fallback.map ServiceType.factory) = ofStep (s.create t fallback) := by
  have hfactory : (ofSession (s.note ("Create service " ++ t.name))).factories.get? t =
      if t ∈ s.factories then some t.factory else none := get?_factoriesOf s.factories t
  unfold create Session.create
  simp only [noteCreation_ofSession, hfactory]
  by_cases ht : t ∈ s.factories
  · have hcontains : (s.note ("Create service " ++ t.name)).factories.contains t = true := by
      simpa [Session.note] using ht
    simp only [ht, hcontains, if_true]
    exact build_ofSession _ t t
  · have hcontains : (s.note ("Create service " ++ t.name)).factories.contains t = false := by
      simpa [Session.note] using ht
    simp only [ht, hcontains, if_false, Bool.false_eq_true]
    cases fallback with
    | none => rfl
    | some made =>
        simp only [Option.map_some, register_ofSession]
        exact build_ofSession _ t made

/-- The manager of a session gives out what the session does, and goes on as the session
does. -/
theorem get_ofSession (s : Session) (t : ServiceType) (fallback : Option ServiceType) :
    (ofSession s).get t (fallback.map ServiceType.factory) = ofStep (s.get t fallback) := by
  have hlookup : ∀ s₁ : Session, (ofSession s₁).lookup t = s₁.lookup t := by
    intro s₁
    rw [lookup, Session.lookup, services_ofSession]
    cases s₁.services.get? t <;> rfl
  rw [get, Session.get, create_ofSession, services_ofSession, hlookup]
  by_cases hhas : s.services.has t = true
  · rw [if_pos hhas, if_pos hhas]
    rfl
  · rw [if_neg hhas, if_neg hhas]
    rcases s.create t fallback with ⟨_ | _, s₁⟩
    · rfl
    · exact congrArg (·, ofSession s₁) (hlookup s₁)

/-! ## The law -/

section

variable {κ S E W : Type} [DecidableEq κ] {C : Conventions κ S E W}

/-- To ask a manager for a service, whether or not it is given out, keeps every service that
is there where it is.  Behind them come services of what was asked for and of what it
depends on, each new, ready, behind those that it depends on, and made from exactly the
instances of these that are kept.  A service that is given out is kept, and asking for it
again gives it out again and changes nothing.  The manager of a session is such a manager. -/
theorem get_keeps (m : Manager C) (t : κ) (fallback : Option (Factory C)) :
    let r := m.get t fallback
    let serves := m.MayServe t fallback
    (∃ added : Table κ S, r.2.services = m.services ++ added ∧ added.keys.Nodup ∧
      (∀ k ∈ added.keys, k ∉ m.services.keys ∧ Needs serves t k) ∧
      ∀ before k y behind, added = before ++ (k, y) :: behind →
        IsMade serves (m.services ++ before) r.2.services k y) ∧
    (∀ x, r.1 = .ok x →
      r.2.services.get? t = some x ∧ ∀ fallback', r.2.get t fallback' = (.ok x, r.2)) ∧
    ∀ (s : Session) (t : ServiceType) (fallback : Option ServiceType),
      (ofSession s).get t (fallback.map ServiceType.factory) =
        ((s.get t fallback).1, ofSession (s.get t fallback).2) := by
  intro r serves
  refine ⟨(built_get m t fallback).exists_added, fun x hx => ?_, get_ofSession⟩
  have hkept : r.2.services.get? t = some x := get_eq_ok (Prod.ext hx rfl)
  exact ⟨hkept, get_of_kept hkept⟩

end

/-- The first compiler service of a session comes in behind the settings service that it is
made from. -/
theorem get_keeps_first :
    let s := (Session.newManager {})
    let r := s.get .compiler none
    r.2.services.keys = [.settings, .compiler] ∧
      ∃ x, r.1 = .ok x ∧ (ofSession r.2).services.get? .compiler = some x ∧
        ∀ fallback', (ofSession r.2).get .compiler fallback' = (.ok x, ofSession r.2) := by
  intro s r
  have hget : (ofSession s).get .compiler none = (r.1, ofSession r.2) :=
    get_ofSession s .compiler none
  have hlaw := (get_keeps (ofSession s) .compiler none).2.1
  rw [hget] at hlaw
  exact ⟨rfl, _, rfl, hlaw _ rfl⟩

end Manager

end SingleFile
