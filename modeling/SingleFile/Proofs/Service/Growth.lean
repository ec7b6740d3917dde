import SingleFile.Proofs.Table
import SingleFile.Service.Action

/-!
# Growth of a session

To ask for a service never touches one that is there: what is made on the way is
kept behind the services that were there before, and is made of new objects.  A
session grows in this sense under every operation, once an action has let go of
what it lets go of.

Main results:

- Theorem `Grows.trans`: growth goes on.
- Theorem `grows_get`: to ask for a service lets a session grow, whether or not
  it is given out.
- Theorem `performWith_grows`: an action lets go of services or factories first,
  and then the session grows.
-/

namespace SingleFile

/-! ## Objects of a service -/

/-- The objects that are made together with a service. -/
def Service.owned : Service → List ObjectId
  | settings d => [d.id, d.settings]
  | compiler c => [c.id, c.compiler]

/-- The objects that a service refers to, those that it owns among them. -/
def Service.objects : Service → List ObjectId
  | settings d => [d.id, d.settings]
  | compiler c => [c.id, c.settingsService, c.compiler, c.settings]

/-- The compiler service was made from the settings service. -/
def CompilerService.Uses (c : CompilerService) (d : SettingsService) : Prop :=
  c.settingsService = d.id ∧ c.settings = d.settings

/-- No service is made from one of its own type. -/
theorem ServiceType.not_mem_dependencies (t : ServiceType) : t ∉ t.dependencies := by
  cases t <;> simp [dependencies]

namespace Session

/-! ## Growth -/

/-- How a service came to be kept under a type while one session became another. -/
structure Makes (s s' : Session) (t : ServiceType) (service : Service) : Prop where
  owned : ∀ o ∈ service.owned, s.nextId ≤ o ∧ o < s'.nextId
  uses : ∀ c, service = .compiler c →
    ∃ d, s'.services.get? .settings = some (.settings d) ∧ c.Uses d
  type : t ∈ s.factories → service.type = t

/-- A session becomes another without touching what is there: services and
factories are only added, the services behind those that were there. -/
structure Grows (s s' : Session) : Prop where
  nextId_le : s.nextId ≤ s'.nextId
  managed : s.manager.isSome = true → s'.manager.isSome = true
  factories : s.factories ⊆ s'.factories
  services : s.services <+: s'.services
  made : ∀ {t service}, s.services.get? t = none → s'.services.get? t = some service →
    Makes s s' t service

section

variable {s s₁ s₂ : Session} {t : ServiceType} {service : Service}

/-- A service that is there is still there when the session has grown. -/
theorem Grows.get? (h : Grows s s₁) (hkept : s.services.get? t = some service) :
    s₁.services.get? t = some service :=
  Table.get?_of_prefix h.services hkept

/-- What came to be kept is kept while the session grows on. -/
theorem Makes.grows (h : Makes s s₁ t service) (hg : Grows s₁ s₂) : Makes s s₂ t service where
  owned o ho := ⟨(h.owned o ho).1, Nat.lt_of_lt_of_le (h.owned o ho).2 hg.nextId_le⟩
  uses c hc := by
    obtain ⟨d, hd, huses⟩ := h.uses c hc
    exact ⟨d, hg.get? hd, huses⟩
  type := h.type

/-- What comes to be kept later comes to be kept from the start. -/
theorem Makes.of_grows (h : Makes s₁ s₂ t service) (hg : Grows s s₁) : Makes s s₂ t service where
  owned o ho := ⟨Nat.le_trans hg.nextId_le (h.owned o ho).1, (h.owned o ho).2⟩
  uses := h.uses
  type ht := h.type (hg.factories ht)

/-- What grows in two steps grows. -/
theorem Grows.trans (h : Grows s s₁) (h' : Grows s₁ s₂) : Grows s s₂ where
  nextId_le := Nat.le_trans h.nextId_le h'.nextId_le
  managed hm := h'.managed (h.managed hm)
  factories := List.Subset.trans h.factories h'.factories
  services := h.services.trans h'.services
  made := by
    intro t service hnone hsome
    cases hbetween : s₁.services.get? t with
    | none => exact (h'.made hbetween hsome).of_grows h
    | some service₁ =>
        rw [h'.get? hbetween, Option.some.injEq] at hsome
        subst hsome
        exact (h.made hnone hbetween).grows h'

/-- A session grows as long as its services stay as they are. -/
theorem Grows.of_services_eq (hid : s.nextId ≤ s₁.nextId)
    (hmanaged : s.manager.isSome = true → s₁.manager.isSome = true)
    (hfactories : s.factories ⊆ s₁.factories) (hservices : s₁.services = s.services) :
    Grows s s₁ where
  nextId_le := hid
  managed := hmanaged
  factories := hfactories
  services := hservices ▸ List.prefix_refl _
  made := by
    intro t service hnone hsome
    rw [hservices, hnone] at hsome
    cases hsome

theorem Grows.refl (s : Session) : Grows s s :=
  .of_services_eq (Nat.le_refl _) id (List.Subset.refl _) rfl

end

/-! ## Registering factories -/

/-- Registering a factory adds it to those that are there, and no other. -/
theorem mem_factories_register (s : Session) (t t' : ServiceType) :
    t' ∈ (s.register t).factories ↔ t' ∈ s.factories ∨ t' = t := by
  unfold register note
  simp only
  split
  · rename_i hcontains
    rw [List.contains_iff_mem] at hcontains
    constructor
    · exact .inl
    · rintro (h | rfl)
      · exact h
      · exact hcontains
  · simp

/-- A note in the journal leaves services and factories as they are. -/
theorem grows_note (s : Session) (event : String) : Grows s (s.note event) :=
  .of_services_eq (Nat.le_refl _) id (List.Subset.refl _) rfl

/-- Registering a factory keeps all services. -/
theorem grows_register (s : Session) (t : ServiceType) : Grows s (s.register t) :=
  .of_services_eq (Nat.le_refl _) id
    (fun t' h => (s.mem_factories_register t t').mpr (.inl h)) rfl

/-- Registering factories one by one keeps all services. -/
theorem grows_registerAll (s : Session) (ts : List ServiceType) : Grows s (s.registerAll ts) := by
  induction ts generalizing s with
  | nil => exact .refl s
  | cons t ts ih => exact (s.grows_register t).trans (ih (s.register t))

/-! ## Making services -/

/-- A service comes from the factory of a type, and the session goes on: the service
is made of the next two objects, and of the settings service that is kept. -/
structure Yields (s s' : Session) (t : ServiceType) (service : Service) : Prop where
  services : s'.services = s.services
  factories : s'.factories = s.factories
  manager : s'.manager = s.manager
  nextId : s'.nextId = s.nextId + 2
  owned : service.owned = [s.nextId, s.nextId + 1]
  type : service.type = t
  uses : ∀ c, service = .compiler c →
    ∃ d, s.services.get? .settings = some (.settings d) ∧ c.Uses d

/-- A factory that makes a service touches none that is kept. -/
theorem make_eq_ok {s s' : Session} {t : ServiceType} {service : Service}
    (h : s.make t = (.ok service, s')) : Yields s s' t service := by
  cases t with
  | settings =>
      simp only [make] at h
      split at h
      · cases h
      · cases h
        refine ⟨rfl, rfl, rfl, rfl, rfl, rfl, ?_⟩
        intro c hc
        cases hc
  | compiler =>
      simp only [make] at h
      split at h
      · rename_i d hd
        cases h
        refine ⟨rfl, rfl, rfl, rfl, rfl, rfl, ?_⟩
        intro c hc
        cases hc
        exact ⟨d, hd, rfl, rfl⟩
      · cases h
      · cases h

/-- A factory that fails changes nothing. -/
theorem make_eq_error {s s' : Session} {t : ServiceType} {e : ServiceError}
    (h : s.make t = (.error e, s')) : s' = s := by
  cases t with
  | settings =>
      simp only [make] at h
      split at h
      · cases h
        rfl
      · cases h
  | compiler =>
      simp only [make] at h
      split at h
      · cases h
      · cases h
        rfl
      · cases h
        rfl

/-- What becomes of a session when a factory makes a service to be kept under a
type: nothing, or the service is made and kept. -/
theorem makeAt_cases (s : Session) (kept made : ServiceType) :
    (∃ e, s.makeAt kept made = (.error e, s)) ∨
    ∃ service s₁, s.make made = (.ok service, s₁) ∧
      s.makeAt kept made = (.ok (), { s₁ with services := s₁.services.put kept service }) := by
  unfold makeAt
  cases hmake : s.make made with
  | mk outcome s₁ =>
      cases outcome with
      | error e =>
          rw [make_eq_error hmake]
          exact .inl ⟨e, rfl⟩
      | ok service => exact .inr ⟨service, s₁, rfl, rfl⟩

@[simp]
theorem factories_makeAt (s : Session) (kept made : ServiceType) :
    (s.makeAt kept made).2.factories = s.factories := by
  rcases s.makeAt_cases kept made with ⟨e, he⟩ | ⟨service, s₁, hmake, hat⟩
  · rw [he]
  · rw [hat]
    exact (make_eq_ok hmake).factories

/-- Making a service keeps those of all other types. -/
theorem get?_makeAt_of_ne (s : Session) {kept t : ServiceType} (made : ServiceType)
    (h : kept ≠ t) : (s.makeAt kept made).2.services.get? t = s.services.get? t := by
  rcases s.makeAt_cases kept made with ⟨e, he⟩ | ⟨service, s₁, hmake, hat⟩
  · rw [he]
  · rw [hat, ← (make_eq_ok hmake).services]
    exact Table.get?_put_of_ne _ _ h

/-- A session grows when a new service is kept in a free place; where a factory of the
place is registered, the service must be of its type. -/
theorem Yields.grows {s s₁ : Session} {kept made : ServiceType} {service : Service}
    (h : Yields s s₁ made service) (hfree : s.services.get? kept = none)
    (htype : kept ∈ s.factories → made = kept) :
    Grows s { s₁ with services := s₁.services.put kept service } := by
  have hprefix : s.services <+: s₁.services.put kept service := by
    rw [h.services, Table.put_of_not_mem ((Table.get?_eq_none_iff _ _).mp hfree)]
    exact List.prefix_append _ _
  refine ⟨?_, ?_, ?_, hprefix, ?_⟩
  · simp only [h.nextId]
    exact Nat.le_add_right _ 2
  · simp only [h.manager, imp_self]
  · simp only [h.factories]
    exact List.Subset.refl _
  · intro t service' hnone hsome
    simp only [h.services] at hsome
    obtain ⟨rfl, rfl⟩ := Table.eq_of_get?_put hnone hsome
    refine ⟨?_, ?_, ?_⟩
    · intro o ho
      rw [h.owned] at ho
      simp only [List.mem_cons, List.not_mem_nil, or_false] at ho
      simp only [h.nextId]
      rcases ho with rfl | rfl
      · exact ⟨Nat.le_refl _, Nat.lt_add_of_pos_right Nat.two_pos⟩
      · exact ⟨Nat.le_succ _, Nat.lt_succ_self _⟩
    · intro c hc
      obtain ⟨d, hd, huses⟩ := h.uses c hc
      exact ⟨d, Table.get?_of_prefix hprefix hd, huses⟩
    · intro hfactory
      rw [h.type, htype hfactory]

/-- A session grows when a service is made where none is kept. -/
theorem grows_makeAt {s : Session} {kept : ServiceType} (hfree : s.services.get? kept = none)
    {made : ServiceType} (htype : kept ∈ s.factories → made = kept) :
    Grows s (s.makeAt kept made).2 := by
  rcases s.makeAt_cases kept made with ⟨e, he⟩ | ⟨service, s₁, hmake, hat⟩
  · rw [he]
    exact .refl s
  · rw [hat]
    exact (make_eq_ok hmake).grows hfree htype

/-! ## Dependencies -/

/-- What becomes of a session when a dependency is ensured. -/
theorem ensure_cases (s : Session) (d : ServiceType) :
    s.ensure d = (.ok (), s) ∧ s.services.has d = true ∨
    s.services.get? d = none ∧
      ((d ∉ s.factories ∧
          s.ensure d = (.error (.noFactory d), s.note ("Create service " ++ d.name))) ∨
        (d ∈ s.factories ∧ s.ensure d = (s.note ("Create service " ++ d.name)).makeAt d d)) := by
  unfold ensure
  cases hhas : s.services.has d with
  | true => exact .inl ⟨rfl, rfl⟩
  | false =>
      have hfree : s.services.get? d = none := by simpa [Table.has] using hhas
      refine .inr ⟨hfree, ?_⟩
      by_cases hmem : d ∈ s.factories
      · exact .inr ⟨hmem, by simp [note, hmem]⟩
      · exact .inl ⟨hmem, by simp [note, hmem]⟩

@[simp]
theorem factories_ensure (s : Session) (d : ServiceType) :
    (s.ensure d).2.factories = s.factories := by
  rcases s.ensure_cases d with ⟨he, _⟩ | ⟨_, ⟨_, he⟩ | ⟨_, he⟩⟩
  · rw [he]
  · rw [he]
    rfl
  · rw [he, factories_makeAt]
    rfl

/-- Making a dependency that may be there already keeps what is there. -/
theorem grows_ensure (s : Session) (d : ServiceType) : Grows s (s.ensure d).2 := by
  rcases s.ensure_cases d with ⟨he, _⟩ | ⟨hfree, ⟨_, he⟩ | ⟨_, he⟩⟩
  · rw [he]
    exact .refl s
  · rw [he]
    exact s.grows_note _
  · have hnoted : (s.note ("Create service " ++ d.name)).services.get? d = none := hfree
    rw [he]
    exact (s.grows_note _).trans (grows_makeAt hnoted fun _ => rfl)

/-- A place that is not that of a dependency with a factory stays free. -/
theorem get?_ensure_of_free {s : Session} {d t : ServiceType}
    (hfree : s.services.get? t = none) (h : t ∈ s.factories → t ≠ d) :
    (s.ensure d).2.services.get? t = none := by
  rcases s.ensure_cases d with ⟨he, _⟩ | ⟨_, ⟨_, he⟩ | ⟨hmem, he⟩⟩
  · rw [he]
    exact hfree
  · rw [he]
    exact hfree
  · have hne : d ≠ t := fun hdt => h (hdt ▸ hmem) hdt.symm
    rw [he, get?_makeAt_of_ne _ _ hne]
    exact hfree

/-- Making all dependencies keeps what is there. -/
theorem grows_ensureAll (s : Session) (ds : List ServiceType) : Grows s (s.ensureAll ds).2 := by
  induction ds generalizing s with
  | nil => exact .refl s
  | cons d ds ih =>
      have hd := s.grows_ensure d
      unfold ensureAll
      cases hensure : s.ensure d with
      | mk outcome s₁ =>
          rw [hensure] at hd
          cases outcome with
          | error e => exact hd
          | ok _ => exact hd.trans (ih s₁)

/-- Making dependencies registers no factory. -/
theorem factories_ensureAll (s : Session) (ds : List ServiceType) :
    (s.ensureAll ds).2.factories = s.factories := by
  induction ds generalizing s with
  | nil => rfl
  | cons d ds ih =>
      have hd := s.factories_ensure d
      unfold ensureAll
      cases hensure : s.ensure d with
      | mk outcome s₁ =>
          rw [hensure] at hd
          cases outcome with
          | error e => exact hd
          | ok _ => exact (ih s₁).trans hd

/-- A place stays free while dependencies are made that are not kept there. -/
theorem get?_ensureAll_of_free {s : Session} {ds : List ServiceType} {t : ServiceType}
    (hfree : s.services.get? t = none) (h : t ∈ s.factories → t ∉ ds) :
    (s.ensureAll ds).2.services.get? t = none := by
  induction ds generalizing s with
  | nil => exact hfree
  | cons d ds ih =>
      have hd : (s.ensure d).2.services.get? t = none :=
        get?_ensure_of_free hfree fun hmem htd => h hmem (htd ▸ List.mem_cons_self)
      have hfactories := s.factories_ensure d
      unfold ensureAll
      cases hensure : s.ensure d with
      | mk outcome s₁ =>
          rw [hensure] at hd hfactories
          cases outcome with
          | error e => exact hd
          | ok _ =>
              refine ih hd fun hmem hds => ?_
              rw [hfactories] at hmem
              exact h hmem (List.mem_cons_of_mem d hds)

/-- A service is made for a free place after its dependencies; none of these takes
the place. -/
theorem grows_makeWithDependencies {s : Session} {kept made : ServiceType}
    (hfree : s.services.get? kept = none) (htype : kept ∈ s.factories → made = kept) :
    Grows s (s.makeWithDependencies kept made).2 := by
  have hstill : (s.ensureAll made.dependencies).2.services.get? kept = none :=
    get?_ensureAll_of_free hfree fun hmem => htype hmem ▸ made.not_mem_dependencies
  have hfactories := s.factories_ensureAll made.dependencies
  have hgrows := s.grows_ensureAll made.dependencies
  unfold makeWithDependencies
  cases hensure : s.ensureAll made.dependencies with
  | mk outcome s₁ =>
      rw [hensure] at hstill hfactories hgrows
      cases outcome with
      | error e => exact hgrows
      | ok _ => exact hgrows.trans (grows_makeAt hstill fun hmem => htype (hfactories ▸ hmem))

/-! ## Asking for services -/

/-- Making a service that is not there keeps all others, with or without a fallback
factory. -/
theorem grows_create {s : Session} {t : ServiceType} (hfree : s.services.get? t = none)
    (fallback : Option ServiceType) : Grows s (s.create t fallback).2 := by
  have hnote := s.grows_note ("Create service " ++ t.name)
  unfold create
  by_cases hmem : t ∈ s.factories
  · simp only [note, hmem, List.contains_eq_mem, decide_true, if_true]
    exact hnote.trans (grows_makeWithDependencies hfree fun _ => rfl)
  · simp only [note, hmem, List.contains_eq_mem, decide_false, Bool.false_eq_true, if_false]
    cases fallback with
    | none => exact hnote
    | some made =>
        refine hnote.trans ((grows_register _ made).trans (grows_makeWithDependencies hfree ?_))
        intro hregistered
        rcases (mem_factories_register _ made t).mp hregistered with h | h
        · exact absurd h hmem
        · exact h.symm

/-- To ask for a service lets the session grow, whether or not it is given out. -/
theorem grows_get (s : Session) (t : ServiceType) (fallback : Option ServiceType) :
    Grows s (s.get t fallback).2 := by
  unfold get
  cases hhas : s.services.has t with
  | true => exact .refl s
  | false =>
      have hcreate : Grows s (s.create t fallback).2 :=
        grows_create (by simpa [Table.has] using hhas) fallback
      simp only [Bool.false_eq_true, if_false]
      cases hc : s.create t fallback with
      | mk outcome s₁ =>
          rw [hc] at hcreate
          cases outcome with
          | error e => exact hcreate
          | ok _ => exact hcreate

/-- A service that is given out is kept. -/
theorem get_eq_ok {s s' : Session} {t : ServiceType} {fallback : Option ServiceType}
    {service : Service} (h : s.get t fallback = (.ok service, s')) :
    s'.services.get? t = some service := by
  have hlookup : ∀ s₁ : Session, s₁.lookup t = .ok service →
      s₁.services.get? t = some service := by
    intro s₁ h₁
    unfold lookup at h₁
    split at h₁
    · rename_i hkept
      cases h₁
      exact hkept
    · cases h₁
  unfold get at h
  split at h
  · obtain ⟨h₁, rfl⟩ := Prod.mk.inj h
    exact hlookup _ h₁
  · split at h
    · cases h
    · obtain ⟨h₁, rfl⟩ := Prod.mk.inj h
      exact hlookup _ h₁

theorem getSettingsService_snd (s : Session) : s.getSettingsService.2 = (s.get .settings).2 := by
  unfold getSettingsService
  split <;> rename_i h <;> rw [h]

theorem getCompilerService_snd (s : Session) : s.getCompilerService.2 = (s.get .compiler).2 := by
  unfold getCompilerService
  split <;> rename_i h <;> rw [h]

theorem getSettings_snd (s : Session) : s.getSettings.2 = (s.get .settings).2 := by
  rw [← getSettingsService_snd]
  unfold getSettings
  split <;> rename_i h <;> rw [h]

theorem getCompilerSettings_snd (s : Session) :
    s.getCompilerSettings.2 = (s.get .compiler).2 := by
  rw [← getCompilerService_snd]
  unfold getCompilerSettings
  split <;> rename_i h <;> rw [h]

theorem getCompiler_snd (s : Session) : s.getCompiler.2 = (s.get .compiler).2 := by
  rw [← getCompilerService_snd]
  unfold getCompiler
  split <;> rename_i h <;> rw [h]

/-! ## Actions -/

/-- The session when an action has let go of what it lets go of. -/
def letGo (s : Session) : Action → Session
  | .newManager => { s with services := [], factories := [] }
  | .teardown => { s with services := [] }
  | .update t => { s with services := s.services.erase t }
  | .clearFactories => { s with factories := [] }
  | _ => s

/-- An assignment makes the settings service if none is there, and drops no service. -/
theorem grows_assignSetting (s : Session) (name : String) (v : Value) :
    Grows s (s.assignSetting name v).2 := by
  have hget : Grows s s.getSettingsService.2 := by
    rw [getSettingsService_snd]
    exact s.grows_get _ _
  unfold assignSetting
  cases hs : s.getSettingsService with
  | mk outcome s₁ =>
      rw [hs] at hget
      cases outcome with
      | error e => exact hget
      | ok d =>
          simp only
          split
          · exact hget
          · exact hget.trans (.of_services_eq (Nat.le_refl _) id (List.Subset.refl _) rfl)

/-- An update drops the service and asks for it again. -/
theorem update_snd {s : Session} {t : ServiceType} (h : s.services.has t = true) :
    (s.update t).2 =
      ({ s.note ("Update service " ++ t.name) with services := s.services.erase t }.get t).2 := by
  unfold update
  rw [if_pos h]
  split <;> rename_i hget <;> rw [hget]

/-- What an update leaves grows out of the session without the service. -/
theorem grows_update (s : Session) (t : ServiceType) :
    Grows { s with services := s.services.erase t } (s.update t).2 := by
  cases hhas : s.services.has t with
  | false =>
      have hfree : s.services.get? t = none := by simpa [Table.has] using hhas
      have hsame : s.update t = (.ok (), s) := by simp [update, hhas]
      rw [Table.erase_of_get?_eq_none hfree, hsame]
      exact .refl s
  | true =>
      rw [update_snd hhas]
      exact (grows_note { s with services := s.services.erase t } _).trans (grows_get _ t none)

/-- A teardown only lets go of the services and reports it. -/
theorem teardown_eq (s : Session) :
    ∃ journal, s.teardown = { s with services := [], journal } := by
  have hfold : ∀ (es : List (ServiceType × Service)) (s : Session),
      ∃ journal, es.foldl (fun s e => s.note ("Teardown service " ++ e.2.type.name)) s =
        { s with journal } := by
    intro es
    induction es with
    | nil => exact fun s => ⟨s.journal, rfl⟩
    | cons e es ih =>
        intro s
        obtain ⟨journal, hj⟩ := ih (s.note ("Teardown service " ++ e.2.type.name))
        exact ⟨journal, by rw [List.foldl_cons, hj]; rfl⟩
  obtain ⟨journal, hj⟩ := hfold s.services s
  exact ⟨journal, by rw [teardown, hj]⟩

/-- A new manager grows out of a session without services and factories. -/
theorem grows_newManager (s : Session) :
    Grows { s with services := [], factories := [] } s.newManager :=
  .of_services_eq (Nat.le_succ _) (fun _ => rfl) (List.nil_subset _) rfl

/-- With a manager, an action lets go of what it lets go of, and then the session
grows. -/
theorem performWith_grows (s : Session) (a : Action) :
    Grows (s.letGo a) (s.performWith a).2 := by
  cases a with
  | manager => exact .refl s
  | newManager => exact s.grows_newManager
  | setEnvironment changes =>
      exact .of_services_eq (Nat.le_refl _) id (List.Subset.refl _) rfl
  | getCompiler =>
      simp only [performWith, mapOutcome_snd, getCompilerService_snd]
      exact s.grows_get _ _
  | get t fallback =>
      simp only [performWith, mapOutcome_snd]
      exact s.grows_get _ _
  | assignSetting name v =>
      simp only [performWith, mapOutcome_snd]
      exact s.grows_assignSetting name v
  | showSettings =>
      simp only [performWith, mapOutcome_snd, getSettings_snd]
      exact s.grows_get _ _
  | showCompilerSettings =>
      simp only [performWith, mapOutcome_snd, getCompilerSettings_snd]
      exact s.grows_get _ _
  | compile template script style =>
      simp only [performWith, mapOutcome_snd, getCompiler_snd]
      exact s.grows_get _ _
  | compileTemplate template script =>
      simp only [performWith, mapOutcome_snd, getCompiler_snd]
      exact s.grows_get _ _
  | checkTemplate template =>
      simp only [performWith, mapOutcome_snd, getCompiler_snd]
      exact s.grows_get _ _
  | update t =>
      simp only [performWith, mapOutcome_snd]
      exact s.grows_update t
  | teardown =>
      obtain ⟨journal, hj⟩ := s.teardown_eq
      simp only [performWith, hj]
      exact .of_services_eq (Nat.le_refl _) id (List.Subset.refl _) rfl
  | replaceTeardown t =>
      simp only [performWith]
      split <;> exact .refl s
  | clearFactories => exact .refl _
  | register ts => exact s.grows_registerAll ts

end Session

end SingleFile
