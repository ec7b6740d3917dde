import SingleFile.Proofs.Service.Runs

/-!
# Calls that fail

A call on the manager that fails is not undone.  It still leaves little behind,
since a service is made from at most one other: where that one cannot be had,
nothing was made, and where it was just made, the service can be made from it.

Main results:

- Theorem `makeWithDependencies_eq_error`: a service that cannot be made leaves
  nothing behind, not even one that it depends on.
- Theorem `get_eq_error`: to ask for a service in vain leaves at most the factory of
  the fallback.
- Theorem `update_eq_error`: a service that cannot be made again is gone.
- Theorem `failed_call_keeps`: what the three calls of the manager keep when they
  fail.
-/

namespace SingleFile

namespace Session

variable {s s' : Session} {t kept made : ServiceType} {e : ServiceError}

/-! ## Making a service in vain -/

/-- A service that cannot be made leaves everything as it was. -/
theorem makeAt_eq_error (h : s.makeAt kept made = (.error e, s')) : s' = s := by
  rcases s.makeAt_cases kept made with ⟨e', he⟩ | ⟨service, s₁, hmake, hat⟩
  · rw [he] at h
    exact (Prod.mk.inj h).2.symm
  · rw [hat] at h
    cases h

/-- A service that is made by a factory is of its type, and it is kept. -/
theorem makeAt_eq_ok (h : s.makeAt kept made = (.ok (), s')) :
    ∃ service, s'.services.get? kept = some service ∧ service.type = made := by
  rcases s.makeAt_cases kept made with ⟨e', he⟩ | ⟨service, s₁, hmake, hat⟩
  · rw [he] at h
    cases h
  · rw [hat] at h
    cases h
    exact ⟨service, Table.get?_put_self _ _ _, (make_eq_ok hmake).type⟩

/-- From a settings service, a compiler service can always be made. -/
theorem makeAt_compiler_ne_error {d : SettingsService}
    (hd : s.services.get? .settings = some (.settings d)) :
    s.makeAt kept .compiler ≠ (.error e, s') := by
  simp [makeAt, make, hd]

/-- A dependency that cannot be had is reported, and nothing else happens. -/
theorem ensure_eq_error {d : ServiceType} (h : s.ensure d = (.error e, s')) :
    ∃ journal, s' = { s with journal } := by
  rcases s.ensure_cases d with ⟨he, _⟩ | ⟨_, ⟨_, he⟩ | ⟨_, he⟩⟩
  · rw [he] at h
    cases h
  · rw [he] at h
    exact ⟨_, (Prod.mk.inj h).2.symm⟩
  · rw [he] at h
    exact ⟨_, makeAt_eq_error h⟩

/-- A dependency that can be had was there, or it was made by its own factory. -/
theorem ensure_eq_ok {d : ServiceType} (h : s.ensure d = (.ok (), s')) :
    s' = s ∨ ∃ service, s'.services.get? d = some service ∧ service.type = d := by
  rcases s.ensure_cases d with ⟨he, _⟩ | ⟨_, ⟨_, he⟩ | ⟨_, he⟩⟩
  · rw [he] at h
    exact .inl (Prod.mk.inj h).2.symm
  · rw [he] at h
    cases h
  · rw [he] at h
    exact .inr (makeAt_eq_ok h)

/-- A service that cannot be made leaves nothing behind but reports, not even a
service that it depends on. -/
theorem makeWithDependencies_eq_error (h : s.makeWithDependencies kept made = (.error e, s')) :
    ∃ journal, s' = { s with journal } := by
  cases made with
  | settings => exact ⟨s.journal, makeAt_eq_error h⟩
  | compiler =>
      simp only [makeWithDependencies, ServiceType.dependencies, ensureAll] at h
      cases hensure : s.ensure .settings with
      | mk outcome s₁ =>
          rw [hensure] at h
          cases outcome with
          | error e' =>
              obtain ⟨_, rfl⟩ := Prod.mk.inj h
              exact ensure_eq_error hensure
          | ok _ =>
              rcases ensure_eq_ok hensure with rfl | ⟨service, hkept, htype⟩
              · exact ⟨s₁.journal, makeAt_eq_error h⟩
              · cases service with
                | settings d => exact absurd h (makeAt_compiler_ne_error hkept)
                | compiler c => cases htype

/-- A service that was made with its dependencies is kept. -/
theorem has_of_makeWithDependencies_eq_ok
    (h : s.makeWithDependencies kept made = (.ok (), s')) : s'.services.has kept = true := by
  unfold makeWithDependencies at h
  split at h
  · cases h
  · obtain ⟨service, hkept, _⟩ := makeAt_eq_ok h
    simp [Table.has, hkept]

/-! ## Asking for a service in vain -/

/-- The factories when a service was asked for that is not there: where it has no
factory, that of the fallback is registered. -/
def factoriesAsked (s : Session) (t : ServiceType) (fallback : Option ServiceType) :
    List ServiceType :=
  if t ∈ s.factories then s.factories
  else
    match fallback with
    | some made => (s.register made).factories
    | none => s.factories

@[simp]
theorem factoriesAsked_none (s : Session) (t : ServiceType) :
    s.factoriesAsked t none = s.factories := by
  simp [factoriesAsked]

/-- A creation that fails keeps the services, registers the fallback factory, and makes
notes. -/
theorem create_eq_error {fallback : Option ServiceType}
    (h : s.create t fallback = (.error e, s')) :
    ∃ journal, s' = { s with factories := s.factoriesAsked t fallback, journal } := by
  unfold create at h
  by_cases hmem : t ∈ s.factories
  · simp only [note, List.contains_iff_mem, hmem, if_true] at h
    obtain ⟨journal, rfl⟩ := makeWithDependencies_eq_error h
    exact ⟨journal, by simp [factoriesAsked, hmem]⟩
  · simp only [note, List.contains_iff_mem, hmem, if_false] at h
    cases fallback with
    | none =>
        obtain ⟨_, rfl⟩ := Prod.mk.inj h
        exact ⟨_, by rw [factoriesAsked_none]⟩
    | some made =>
        obtain ⟨journal, rfl⟩ := makeWithDependencies_eq_error h
        exact ⟨journal, by simp [factoriesAsked, hmem, register, note]⟩

/-- A service that was created is kept. -/
theorem has_of_create_eq_ok {fallback : Option ServiceType}
    (h : s.create t fallback = (.ok (), s')) : s'.services.has t = true := by
  unfold create at h
  simp only at h
  split at h
  · exact has_of_makeWithDependencies_eq_ok h
  · split at h
    · exact has_of_makeWithDependencies_eq_ok h
    · cases h

/-- A service that is kept is found. -/
theorem lookup_ne_error (h : s.services.has t = true) : s.lookup t ≠ .error e := by
  obtain ⟨service, hservice⟩ := Option.isSome_iff_exists.mp h
  simp [lookup, hservice]

/-- To ask for a service in vain leaves no service behind, and no factory but that of
the fallback. -/
theorem get_eq_error {fallback : Option ServiceType} (h : s.get t fallback = (.error e, s')) :
    ∃ journal, s' = { s with factories := s.factoriesAsked t fallback, journal } := by
  unfold get at h
  split at h
  · rename_i hhas
    exact absurd (Prod.mk.inj h).1 (lookup_ne_error hhas)
  · cases hcreate : s.create t fallback with
    | mk outcome s₁ =>
        rw [hcreate] at h
        cases outcome with
        | error e' =>
            obtain ⟨_, rfl⟩ := Prod.mk.inj h
            exact create_eq_error hcreate
        | ok _ =>
            obtain ⟨hlookup, rfl⟩ := Prod.mk.inj h
            exact absurd hlookup (lookup_ne_error (has_of_create_eq_ok hcreate))

/-- A service that cannot be made again is gone; everything else is as it was. -/
theorem update_eq_error (h : s.update t = (.error e, s')) :
    ∃ journal, s' = { s with services := s.services.erase t, journal } := by
  unfold update at h
  split at h
  · split at h
    · rename_i e' s₁ hget
      obtain ⟨_, rfl⟩ := Prod.mk.inj h
      obtain ⟨journal, rfl⟩ := get_eq_error hget
      exact ⟨journal, by simp [note]⟩
    · cases h
  · cases h

/-- In an environment that the settings refuse, the settings service cannot be made
again. -/
theorem update_settings_eq_error (hkept : s.services.has .settings = true)
    (hfactory : ServiceType.settings ∈ s.factories) {issues : List Issue}
    (h : Settings.ofEnvironment s.environment = .error issues) :
    (s.update .settings).1 = .error (.invalidSettings issues) := by
  unfold update
  rw [if_pos hkept]
  simp [get, Table.has, create, note, hfactory, makeWithDependencies,
    ServiceType.dependencies, ensureAll, makeAt, make, h]

/-- A variable that names an empty prefix gives no settings. -/
theorem exists_issues_of_empty_prefix :
    ∃ issues, Settings.ofEnvironment [("SFCPLAY_DIRECTIVE_PREFIX", "")] = .error issues := by
  have hok : (Settings.ofEnvironment [("SFCPLAY_DIRECTIVE_PREFIX", "")]).isOk = false := by
    decide +kernel
  cases h : Settings.ofEnvironment [("SFCPLAY_DIRECTIVE_PREFIX", "")] with
  | error issues => exact ⟨issues, rfl⟩
  | ok settings =>
      rw [h] at hok
      cases hok

/-! ## The law -/

/-- When a call on the manager fails, the services, the objects that they refer to and
the factories are as before, with two exceptions: a fallback that was needed stays
registered, and a service that was to be made again is gone. -/
theorem failed_call_keeps (s s' : Session) (e : ServiceError) :
    (∀ t fallback, s.get t fallback = (.error e, s') →
      ∃ journal, s' = { s with factories := s.factoriesAsked t fallback, journal }) ∧
    (∀ t, s.update t = (.error e, s') →
      ∃ journal, s' = { s with services := s.services.erase t, journal }) ∧
    (∀ name, s.registerNamed name = (.error e, s') → s' = s) := by
  refine ⟨fun t fallback => get_eq_error, fun t => update_eq_error, fun name h => ?_⟩
  unfold registerNamed at h
  split at h
  · exact (Prod.mk.inj h).2.symm
  · cases h

/-- Three calls that fail: the settings refuse the environment, a compiler factory does
not make settings, and no service goes by the name. -/
theorem failed_call_keeps_three :
    let s := (initial []).after
      [.getCompiler, .setEnvironment [("SFCPLAY_DIRECTIVE_PREFIX", some "")]]
    let cleared := (initial []).after [.clearFactories]
    (∃ e s', s.update .settings = (.error e, s') ∧
      ∃ journal, s' = { s with services := s.services.erase .settings, journal }) ∧
    (∃ s', cleared.get .settings (some .compiler) = (.error (.noFactory .settings), s') ∧
      ∃ journal, s' = { cleared with factories := [.compiler], journal }) ∧
    ∃ s', s.registerNamed "router_service" = (.error (.unknownType "router_service"), s') ∧
      s' = s := by
  intro s cleared
  refine ⟨?_, ?_, ?_⟩
  · obtain ⟨issues, hissues⟩ := exists_issues_of_empty_prefix
    have hfails : (s.update .settings).1 = .error (.invalidSettings issues) :=
      update_settings_eq_error rfl List.mem_cons_self hissues
    exact ⟨_, _, Prod.ext hfails rfl,
      (failed_call_keeps s _ _).2.1 .settings (Prod.ext hfails rfl)⟩
  · exact ⟨_, rfl, (failed_call_keeps cleared _ _).1 .settings (some .compiler) rfl⟩
  · exact ⟨_, rfl, (failed_call_keeps s _ _).2.2 "router_service" rfl⟩

/-- A settings service that cannot be made again is no longer there, and the factory of
a fallback that was of no use is still there. -/
theorem failed_call_changes :
    let s := (initial []).after
      [.get .settings none, .setEnvironment [("SFCPLAY_DIRECTIVE_PREFIX", some "")]]
    let cleared := (initial []).after [.clearFactories]
    (∃ e s', s.update .settings = (.error e, s') ∧
      s.services.has .settings = true ∧ s'.services = []) ∧
    ∃ e s', cleared.get .settings (some .compiler) = (.error e, s') ∧
      cleared.factories = [] ∧ s'.factories = [.compiler] := by
  intro s cleared
  refine ⟨?_, ⟨_, _, rfl, rfl, rfl⟩⟩
  obtain ⟨issues, hissues⟩ := exists_issues_of_empty_prefix
  have hfails : (s.update .settings).1 = .error (.invalidSettings issues) :=
    update_settings_eq_error rfl List.mem_cons_self hissues
  refine ⟨_, _, Prod.ext hfails rfl, rfl, ?_⟩
  obtain ⟨journal, hleft⟩ := update_eq_error (Prod.ext hfails rfl)
  rw [hleft]
  rfl

end Session

end SingleFile
