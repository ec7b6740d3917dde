import SingleFile.Proofs.Service.Runs

/-!
# The compiler and the settings service

A compiler service is made from the settings service that is kept at the time, and
its compiler uses the settings of that service.  Both stay together until the
settings service is made again while the compiler service is there: the compiler
service is not made again with it, and goes on with the settings of before.

Main results:

- Theorem `follows_after`: unless this happened, the settings service that the
  compiler service was made from is the one that is kept.
- Theorem `lt_of_losesSettings`: once it happened, every settings service that is
  kept is made of newer objects.
- Theorem `compiler_follows_settings_iff`: the two belong together exactly when it
  did not happen, and then every accepted assignment to the settings is seen by the
  next compile.
-/

namespace SingleFile

namespace Session

/-! ## Losing the settings -/

/-- The settings service is made again while the compiler service is there. -/
def LosesSettings (c : CompilerService) (s : Session) (a : Action) : Prop :=
  a = .update .settings ∧ s.services.get? .compiler = some (.compiler c)

/-- The settings service that the compiler service was made from is kept. -/
def Follows (s : Session) (c : CompilerService) : Prop :=
  ∃ d, s.services.get? .settings = some (.settings d) ∧ c.Uses d

/-- What an action leaves of the compiler service, it leaves of the settings
service, unless it makes that again. -/
theorem get?_letGo_settings {s : Session} {a : Action} {c : CompilerService}
    (ha : ¬ LosesSettings c s a)
    (hc : (s.letGo a).services.get? .compiler = some (.compiler c)) {service : Service}
    (hd : s.services.get? .settings = some service) :
    (s.letGo a).services.get? .settings = some service := by
  cases a with
  | newManager => cases hc
  | teardown => cases hc
  | update t =>
      cases t with
      | settings => exact absurd ⟨rfl, get?_of_get?_letGo hc⟩ ha
      | compiler =>
          have hne : ServiceType.compiler ≠ .settings := by decide
          exact (Table.get?_erase_of_ne _ hne).trans hd
  | _ => exact hd

/-- An action that does not make the settings service again keeps the two services
together, or makes the compiler service from the settings service that is kept. -/
theorem follows_perform {s : Session} (hs : s.Sound) {c : CompilerService} {a : Action}
    (h : s.services.get? .compiler = some (.compiler c) → s.Follows c)
    (ha : ¬ LosesSettings c s a)
    (hc : (s.perform a).2.services.get? .compiler = some (.compiler c)) :
    (s.perform a).2.Follows c := by
  rcases kept_or_made hs hc with hkept | ⟨_, hmakes⟩
  · obtain ⟨d, hd, huses⟩ := h (get?_of_get?_letGo hkept)
    exact ⟨d, (perform_grows hs a).get? (get?_letGo_settings ha hkept hd), huses⟩
  · exact hmakes.uses c rfl

/-- A compiler service that follows the settings does so through every run in which it does
not lose them. -/
theorem follows_after {s : Session} (hs : s.Sound) {c : CompilerService}
    (h : s.services.get? .compiler = some (.compiler c) → s.Follows c) {as : List Action}
    (hnot : ¬ s.Happens (LosesSettings c) as)
    (hc : (s.after as).services.get? .compiler = some (.compiler c)) :
    (s.after as).Follows c := by
  induction as generalizing s with
  | nil => exact h hc
  | cons a as ih =>
      rw [happens_cons_iff, not_or] at hnot
      exact ih (hs.perform a) (follows_perform hs h hnot.1) hnot.2 hc

/-- When the settings service was made again while the compiler service was there,
every settings service that is kept later is newer than what the compiler service
was made from. -/
theorem lt_of_losesSettings {s : Session} (hs : s.Sound) {c : CompilerService}
    {as : List Action} (h : s.Happens (LosesSettings c) as) {d : SettingsService}
    (hd : (s.after as).services.get? .settings = some (.settings d)) :
    c.settingsService < d.id ∧ c.settings < d.settings := by
  obtain ⟨before, a, behind, rfl, rfl, hc⟩ := h
  have hs' : (s.after before).Sound := hs.after before
  have hold := hs'.objects_lt hc
  have hrenewed : Renewed .settings (s.after before).nextId
      ((s.after before).perform (.update .settings)).2 :=
    renewed_of_letGo hs' (Table.get?_erase_self _ _)
  have hnew := (hrenewed.after (hs'.perform _) behind).le_owned
    (by rwa [after_append, after_cons] at hd)
  exact ⟨Nat.lt_of_lt_of_le (hold c.settingsService (by simp [Service.objects]))
      (hnew d.id (by simp [Service.owned])),
    Nat.lt_of_lt_of_le (hold c.settings (by simp [Service.objects]))
      (hnew d.settings (by simp [Service.owned]))⟩

/-! ## Factories at hand -/

/-- Both factories are registered, and every service is kept under its own type. -/
structure Stocked (s : Session) : Prop where
  mem_factories : ∀ t, t ∈ s.factories
  type_eq : ∀ {t service}, s.services.get? t = some service → service.type = t

/-- A new manager has the factories of all types. -/
theorem stocked_newManager (s : Session) : s.newManager.Stocked where
  mem_factories t := by
    cases t
    · exact List.mem_cons_self
    · exact List.mem_cons_of_mem _ List.mem_cons_self
  type_eq h := by cases h

/-- Only to forget the factories takes them away. -/
theorem Stocked.performWith {s : Session} (h : s.Stocked) {a : Action}
    (ha : a ≠ .clearFactories) : (s.performWith a).2.Stocked := by
  by_cases hnew : a = .newManager
  · subst hnew
    exact s.stocked_newManager
  · have hgrows := s.performWith_grows a
    have hfactories : ∀ t, t ∈ (s.letGo a).factories := by
      intro t
      cases a with
      | newManager => exact absurd rfl hnew
      | clearFactories => exact absurd rfl ha
      | _ => exact h.mem_factories t
    refine ⟨fun t => hgrows.factories (hfactories t), ?_⟩
    intro t service hkept
    cases hbefore : (s.letGo a).services.get? t with
    | none => exact (hgrows.made hbefore hkept).type (hfactories t)
    | some service' =>
        rw [hgrows.get? hbefore, Option.some.injEq] at hkept
        subst hkept
        exact h.type_eq (get?_of_get?_letGo hbefore)

/-- Behind every action there is a manager. -/
theorem withManager_perform (s : Session) (a : Action) :
    (s.perform a).2.withManager = (s.perform a).2 := by
  obtain ⟨id, hid⟩ := Option.isSome_iff_exists.mp (s.isSome_manager_perform a)
  simp [withManager, hid]

/-- All factories stay registered through a run that does not clear them. -/
theorem Stocked.after {s : Session} (h : s.withManager.Stocked) {as : List Action}
    (has : ∀ a ∈ as, a ≠ .clearFactories) : (s.after as).withManager.Stocked := by
  induction as generalizing s with
  | nil => exact h
  | cons a as ih =>
      refine ih ?_ fun b hb => has b (List.mem_cons_of_mem a hb)
      rw [withManager_perform]
      exact h.performWith (has a List.mem_cons_self)

/-! ## The compiler of a session -/

/-- The compiler that is given out uses the settings of the service that is kept,
when the compiler service, if there is one, follows it. -/
theorem getCompiler_of_follows {s : Session} (hstocked : s.Stocked) {d : SettingsService}
    (hd : s.services.get? .settings = some (.settings d)) {settings : Settings}
    (hsettings : Settings.ofAttributes (s.attributes d.settings) = .ok settings)
    (h : ∀ c, s.services.get? .compiler = some (.compiler c) → s.Follows c) :
    s.getCompiler.1 = .ok { settings } := by
  cases hkept : s.services.get? .compiler with
  | some service =>
      cases service with
      | settings d' => cases hstocked.type_eq hkept
      | compiler c =>
          obtain ⟨d', hd', _, hcontents⟩ := h c hkept
          rw [hd] at hd'
          cases hd'
          simp [getCompiler, getCompilerService, get_of_has hkept, compilerOf, contents, hcontents,
            hsettings, Except.map]
  | none =>
      have hmem : ServiceType.compiler ∈ s.factories := hstocked.mem_factories .compiler
      have hhas : s.services.has .settings = true := by simp [Table.has, hd]
      simp [getCompiler, getCompilerService, get, Table.has, hkept, create, note, hmem,
        makeWithDependencies, ServiceType.dependencies, ensureAll, ensure, hd, makeAt, make,
        lookup, compilerOf, contents, attributes]
      simp only [attributes] at hsettings
      simp [hsettings, Except.map]

/-- An accepted assignment is made to the settings of the service that is kept. -/
theorem exists_kept_of_assignSetting {s s₁ : Session} {name : String} {v : Value}
    {a : Attributes} (h : s.assignSetting name v = (.ok a, s₁)) :
    ∃ d, s₁.services.get? .settings = some (.settings d) ∧ s₁.attributes d.settings = a := by
  unfold assignSetting getSettingsService at h
  cases hget : s.get .settings with
  | mk outcome s' =>
      rw [hget] at h
      cases outcome with
      | error e => cases h
      | ok service =>
          cases service with
          | compiler c => cases h
          | settings d =>
              have hd : s'.services.get? .settings = some (.settings d) := get_eq_ok hget
              simp only at h
              split at h
              · cases h
              · cases h
                exact ⟨d, hd, by simp [attributes]⟩

/-- Settings are shown for an object that comes to them. -/
theorem shown_eq_settings_iff {a : Attributes} {settings : Settings} :
    shown a = .settings settings ↔ Settings.ofAttributes a = .ok settings := by
  unfold shown
  cases Settings.ofAttributes a <;> simp

/-- An assignment that is accepted and leaves settings is one to the object of the
service. -/
theorem assignSetting_of_perform {s s₁ : Session} {name : String} {v : Value}
    {settings : Settings}
    (h : s.perform (.assignSetting name v) = (.ok (.settings settings), s₁)) :
    ∃ a, s.withManager.assignSetting name v = (.ok a, s₁) ∧
      Settings.ofAttributes a = .ok settings := by
  simp only [perform, performWith] at h
  cases hstep : s.withManager.assignSetting name v with
  | mk outcome s₂ =>
      rw [hstep] at h
      cases outcome with
      | error e => cases h
      | ok a =>
          obtain ⟨houtcome, rfl⟩ := Prod.mk.inj h
          exact ⟨a, rfl, shown_eq_settings_iff.mp (Except.ok.inj houtcome)⟩

/-- Where the compiler service follows the settings service, the compiler that is given
out behind an accepted assignment uses the settings that were assigned. -/
theorem getCompiler_of_assignSetting {s s₁ : Session} (hs : s.Sound)
    (hstocked : s.withManager.Stocked)
    (hfollows : ∀ c, s.services.get? .compiler = some (.compiler c) → s.Follows c)
    {name : String} {v : Value} {settings : Settings}
    (h : s.perform (.assignSetting name v) = (.ok (.settings settings), s₁)) :
    s₁.getCompiler.1 = .ok { settings } := by
  have hs₁ : (s.perform (.assignSetting name v)).2 = s₁ := by rw [h]
  have hstill : ∀ c, s₁.services.get? .compiler = some (.compiler c) → s₁.Follows c := by
    intro c hc
    rw [← hs₁] at hc ⊢
    exact follows_perform hs (hfollows c) (by simp [LosesSettings]) hc
  have hstocked₁ : s₁.Stocked := by
    rw [← hs₁]
    exact hstocked.performWith (by simp)
  obtain ⟨a, hassign, ha⟩ := assignSetting_of_perform h
  obtain ⟨d, hd, rfl⟩ := exists_kept_of_assignSetting hassign
  exact getCompiler_of_follows hstocked₁ hd ha hstill

/-- The compiler that is given out does what is asked of the shared compiler. -/
theorem outcomes_of_getCompiler {s : Session} {id : ObjectId} (hid : s.manager = some id)
    {k : Compiler} (hk : s.getCompiler.1 = .ok k) (template script style : Value) :
    (s.perform (.compile template script style)).1 =
        .ok (.result (k.compile template script style)) ∧
      (s.perform (.compileTemplate template script)).1 =
        .ok (.result (k.compileTemplate template script)) ∧
      (s.perform (.checkTemplate template)).1 =
        .ok (.faults (Template.faults k.settings template)) := by
  simp only [perform_of_managed hid, performWith, mapOutcome_fst, hk]
  exact ⟨rfl, rfl, rfl⟩

/-! ## The law -/

/-- In every session of a run, the compiler service that is there belongs to the
settings service that is there exactly when that was not made again in the presence
of the compiler service.  When no compiler service is there, or one that belongs to
the settings service, every accepted assignment to the settings decides the very
next compile or check by the shared compiler. -/
theorem compiler_follows_settings_iff (env : Environment) (as : List Action) :
    let s := (initial env).after as
    (∀ c d, s.services.get? .compiler = some (.compiler c) →
      s.services.get? .settings = some (.settings d) →
      (c.settingsService = d.id ∧ c.settings = d.settings ↔
        ¬ (initial env).Happens (LosesSettings c) as)) ∧
    ((∀ a ∈ as, a ≠ .clearFactories) →
      (∀ c, s.services.get? .compiler = some (.compiler c) →
        ¬ (initial env).Happens (LosesSettings c) as) →
      ∀ name v settings s₁, s.perform (.assignSetting name v) = (.ok (.settings settings), s₁) →
        ∀ template script style,
          let k : Compiler := { settings }
          (s₁.perform (.compile template script style)).1 =
            .ok (.result (k.compile template script style)) ∧
          (s₁.perform (.compileTemplate template script)).1 =
            .ok (.result (k.compileTemplate template script)) ∧
          (s₁.perform (.checkTemplate template)).1 =
            .ok (.faults (Template.faults settings template))) := by
  intro s
  have hs : s.Sound := sound_after env as
  have hfollows : ∀ c, s.services.get? .compiler = some (.compiler c) →
      ¬ (initial env).Happens (LosesSettings c) as → s.Follows c := by
    intro c hc hnot
    exact follows_after (sound_initial env) (fun hnone => by cases hnone) hnot hc
  refine ⟨fun c d hc hd => ⟨fun huses hlost => ?_, fun hnot => ?_⟩, ?_⟩
  · have hlt := (lt_of_losesSettings (sound_initial env) hlost hd).1
    rw [huses.1] at hlt
    exact Nat.lt_irrefl _ hlt
  · obtain ⟨d', hd', huses⟩ := hfollows c hc hnot
    rw [hd] at hd'
    cases hd'
    exact huses
  · intro hclear hnot name v settings s₁ hassign template script style k
    obtain ⟨id, hid⟩ := Option.isSome_iff_exists.mp
      (s.isSome_manager_perform (.assignSetting name v))
    rw [hassign] at hid
    have hinitial : (initial env).withManager.Stocked := stocked_newManager _
    have hk : s₁.getCompiler.1 = .ok k :=
      getCompiler_of_assignSetting hs (hinitial.after hclear)
        (fun c hc => hfollows c hc (hnot c hc)) hassign
    exact outcomes_of_getCompiler hid hk template script style

/-- An assignment to the first settings reaches the compiler that was made from
them. -/
theorem compiler_follows_first_settings :
    let s := (initial []).after [.getCompiler]
    let assigned := s.perform (.assignSetting "directive_prefix" (.text "x-"))
    let template : Value := .text "<p x-show></p>"
    ∃ c d settings, s.services.get? .compiler = some (.compiler c) ∧
      s.services.get? .settings = some (.settings d) ∧
      (c.settingsService = d.id ∧ c.settings = d.settings) ∧
      assigned.1 = .ok (.settings settings) ∧ settings.directivePrefix = "x-" ∧
      (assigned.2.perform (.checkTemplate template)).1 =
        .ok (.faults (Template.faults settings template)) := by
  intro s assigned template
  have hlaw := compiler_follows_settings_iff [] [.getCompiler]
  have hnot : ∀ c, ¬ (initial []).Happens (LosesSettings c) [.getCompiler] := by
    intro c
    simp [happens_cons_iff, not_happens_nil, LosesSettings]
  have hassign : assigned = (.ok (.settings { directivePrefix := "x-" }), assigned.2) := rfl
  refine ⟨_, _, { directivePrefix := "x-" }, rfl, rfl, (hlaw.1 _ _ rfl rfl).mpr (hnot _), rfl,
    rfl, ?_⟩
  exact (hlaw.2 (by simp) (fun c _ => hnot c) _ _ _ _ hassign template template template).2.2

/-- The settings service is made again in the presence of the compiler service; an
assignment that is accepted then does not reach the compiler. -/
theorem compiler_loses_settings :
    let s := (initial []).after [.getCompiler, .update .settings]
    let assigned := s.perform (.assignSetting "directive_prefix" (.text "x-"))
    (∃ c d, s.services.get? .compiler = some (.compiler c) ∧
      s.services.get? .settings = some (.settings d) ∧
      c.settingsService ≠ d.id ∧ c.settings ≠ d.settings) ∧
    (∃ settings, assigned.1 = .ok (.settings settings) ∧ settings.directivePrefix = "x-" ∧
      Template.faults settings (.text "<p x-show></p>") = [.invalidDirectives ["x-show"]]) ∧
    (assigned.2.perform (.checkTemplate (.text "<p x-show></p>"))).1 = .ok (.faults []) := by
  intro s assigned
  have hfaults : Template.faults {} (.text "<p x-show></p>") = [] := by decide +kernel
  refine ⟨⟨_, _, rfl, rfl, by decide, by decide⟩, ⟨_, rfl, by decide, by decide +kernel⟩, ?_⟩
  rw [← hfaults]
  rfl

end Session

end SingleFile
