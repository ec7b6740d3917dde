import SingleFile.Proofs.Service.Growth

/-!
# Runs of a session

A run is a list of actions on the session of a process that has done nothing
yet.  What an action does to the services is said once, by `perform_grows`: it
lets go of some of them and then the session grows.  Every invariant of runs is
derived from that.

Main results:

- Theorem `perform_grows`: every action lets go of services or factories first,
  and then the session grows.
- Theorem `sound_after`: in every session of a run, the objects in use were made.
- Theorem `happens_cons_iff`: what happens in a run happens at its first action or
  behind it.
- Theorem `Renewed.after`: a service that was made after a certain point of a run
  is never followed by one that was made before.
-/

namespace SingleFile

namespace Session

/-- The session of a process that has done nothing yet. -/
def initial (env : Environment) : Session :=
  { environment := env }

/-! ## Letting go -/

@[simp]
theorem manager_letGo (s : Session) (a : Action) : (s.letGo a).manager = s.manager := by
  cases a <;> rfl

@[simp]
theorem nextId_letGo (s : Session) (a : Action) : (s.letGo a).nextId = s.nextId := by
  cases a <;> rfl

/-- An action may let go of factories, and adds none by that. -/
theorem factories_letGo_subset (s : Session) (a : Action) :
    (s.letGo a).factories ⊆ s.factories := by
  cases a <;> simp [letGo]

/-- What is kept when an action has let go was kept before. -/
theorem get?_of_get?_letGo {s : Session} {a : Action} {t : ServiceType} {service : Service}
    (h : (s.letGo a).services.get? t = some service) : s.services.get? t = some service := by
  cases a with
  | newManager => cases h
  | teardown => cases h
  | update t' => exact Table.get?_of_get?_erase h
  | _ => exact h

/-! ## Invariants of a run -/

/-- A session without a manager is empty, and the objects of all services that are
kept were made. -/
structure Sound (s : Session) : Prop where
  empty_of_unmanaged : s.manager = none → s.services = [] ∧ s.factories = []
  objects_lt : ∀ {t service}, s.services.get? t = some service →
    ∀ o ∈ service.objects, o < s.nextId

/-- A session is sound before anything is done. -/
theorem sound_initial (env : Environment) : (initial env).Sound where
  empty_of_unmanaged _ := ⟨rfl, rfl⟩
  objects_lt h := by cases h

/-- A service is kept only where there is a manager. -/
theorem Sound.exists_manager {s : Session} (hs : s.Sound) {t : ServiceType} {service : Service}
    (h : s.services.get? t = some service) : ∃ id, s.manager = some id := by
  cases hm : s.manager with
  | some id => exact ⟨id, rfl⟩
  | none =>
      rw [(hs.empty_of_unmanaged hm).1] at h
      cases h

/-- Where there is a manager, an action needs no other. -/
theorem perform_of_managed {s : Session} {id : ObjectId} (h : s.manager = some id) (a : Action) :
    s.perform a = s.performWith a := by
  simp [perform, withManager, h]

/-- Every action lets go of services or factories first, and then the session
grows. -/
theorem perform_grows {s : Session} (hs : s.Sound) (a : Action) :
    Grows (s.letGo a) (s.perform a).2 := by
  cases hm : s.manager with
  | some id =>
      rw [perform_of_managed hm]
      exact s.performWith_grows a
  | none =>
      obtain ⟨hservices, hfactories⟩ := hs.empty_of_unmanaged hm
      have hperform : s.perform a = s.newManager.performWith a := by
        simp [perform, withManager, hm]
      have hempty : (s.letGo a).services = [] := by
        cases a <;> simp [letGo, hservices, Table.erase]
      have hempty' : (s.newManager.letGo a).services = [] := by
        cases a <;> rfl
      have hnone : (s.letGo a).factories = [] := by
        have hsub := s.factories_letGo_subset a
        rw [hfactories] at hsub
        exact List.subset_nil.mp hsub
      have hmade : Grows (s.letGo a) (s.newManager.letGo a) := by
        refine .of_services_eq ?_ ?_ ?_ (hempty'.trans hempty.symm)
        · simp only [nextId_letGo]
          exact Nat.le_succ _
        · simp [hm]
        · rw [hnone]
          exact List.nil_subset _
      rw [hperform]
      exact hmade.trans (s.newManager.performWith_grows a)

/-- Once anything was asked for, there is a manager. -/
theorem isSome_manager_perform (s : Session) (a : Action) :
    (s.perform a).2.manager.isSome = true := by
  have hmanager : s.withManager.manager.isSome = true := by
    unfold withManager
    split
    · rename_i h
      simp [h]
    · rfl
  exact (s.withManager.performWith_grows a).managed (by simpa using hmanager)

/-- What is kept after an action was kept when it had let go, or was made since. -/
theorem kept_or_made {s : Session} (hs : s.Sound) {a : Action} {t : ServiceType}
    {service : Service} (h : (s.perform a).2.services.get? t = some service) :
    (s.letGo a).services.get? t = some service ∨
      (s.letGo a).services.get? t = none ∧ Makes (s.letGo a) (s.perform a).2 t service := by
  have hgrows := perform_grows hs a
  cases hbefore : (s.letGo a).services.get? t with
  | none => exact .inr ⟨rfl, hgrows.made hbefore h⟩
  | some service' =>
      rw [hgrows.get? hbefore] at h
      exact .inl h

/-- Every action keeps a session sound. The settings service that a compiler service was
made from may be older than it. -/
theorem Sound.perform {s : Session} (hs : s.Sound) (a : Action) : (s.perform a).2.Sound where
  empty_of_unmanaged h := by
    have hsome := s.isSome_manager_perform a
    rw [h] at hsome
    cases hsome
  objects_lt := by
    have hle : s.nextId ≤ (s.perform a).2.nextId := by
      have hgrows := (perform_grows hs a).nextId_le
      rwa [nextId_letGo] at hgrows
    have hsettings : ∀ {d}, (s.perform a).2.services.get? .settings = some (.settings d) →
        d.id < (s.perform a).2.nextId ∧ d.settings < (s.perform a).2.nextId := by
      intro d hd
      rcases kept_or_made hs hd with hkept | ⟨_, hmakes⟩
      · have hlt := hs.objects_lt (get?_of_get?_letGo hkept)
        exact ⟨Nat.lt_of_lt_of_le (hlt d.id (by simp [Service.objects])) hle,
          Nat.lt_of_lt_of_le (hlt d.settings (by simp [Service.objects])) hle⟩
      · exact ⟨(hmakes.owned d.id (by simp [Service.owned])).2,
          (hmakes.owned d.settings (by simp [Service.owned])).2⟩
    intro t service h o ho
    rcases kept_or_made hs h with hkept | ⟨_, hmakes⟩
    · exact Nat.lt_of_lt_of_le (hs.objects_lt (get?_of_get?_letGo hkept) o ho) hle
    · cases service with
      | settings d => exact (hmakes.owned o ho).2
      | compiler c =>
          obtain ⟨d, hd, hid, hcontents⟩ := hmakes.uses c rfl
          simp only [Service.objects, List.mem_cons, List.not_mem_nil, or_false] at ho
          rcases ho with rfl | rfl | rfl | rfl
          · exact (hmakes.owned c.id (by simp [Service.owned])).2
          · rw [hid]
            exact (hsettings hd).1
          · exact (hmakes.owned c.compiler (by simp [Service.owned])).2
          · rw [hcontents]
            exact (hsettings hd).2

/-- A sound session stays sound through every run. -/
theorem Sound.after {s : Session} (hs : s.Sound) (as : List Action) : (s.after as).Sound := by
  induction as generalizing s with
  | nil => exact hs
  | cons a as ih => exact ih (hs.perform a)

/-- Every session of a run is sound. -/
theorem sound_after (env : Environment) (as : List Action) : ((initial env).after as).Sound :=
  (sound_initial env).after as

/-! ## What happens in a run -/

/-- A run of two parts is the second part behind the first. -/
theorem after_append (s : Session) (as bs : List Action) :
    s.after (as ++ bs) = (s.after as).after bs := by
  simp [after]

/-- At some point of a run an action is taken of which the relation holds. -/
def Happens (p : Session → Action → Prop) (s : Session) (as : List Action) : Prop :=
  ∃ before a behind, as = before ++ a :: behind ∧ p (s.after before) a

/-- Nothing happens in a run without actions. -/
theorem not_happens_nil (p : Session → Action → Prop) (s : Session) : ¬ s.Happens p [] := by
  rintro ⟨before, a, behind, h, _⟩
  simp at h

/-- Where a list with a first element is split, that element or a later one stands behind
the first part. -/
theorem exists_split_cons_iff {α : Type} (P : List α → α → List α → Prop) (a : α)
    (as : List α) :
    (∃ before b behind, a :: as = before ++ b :: behind ∧ P before b behind) ↔
      P [] a as ∨ ∃ before b behind, as = before ++ b :: behind ∧ P (a :: before) b behind := by
  constructor
  · rintro ⟨before, b, behind, hsplit, hb⟩
    cases before with
    | nil =>
        obtain ⟨rfl, rfl⟩ := List.cons.inj hsplit
        exact .inl hb
    | cons a' before =>
        obtain ⟨rfl, rfl⟩ := List.cons.inj hsplit
        exact .inr ⟨before, b, behind, rfl, hb⟩
  · rintro (ha | ⟨before, b, behind, rfl, hb⟩)
    · exact ⟨[], a, as, rfl, ha⟩
    · exact ⟨a :: before, b, behind, rfl, hb⟩

/-- What happens in a run happens at its first action or behind it. -/
theorem happens_cons_iff (p : Session → Action → Prop) (s : Session) (a : Action)
    (as : List Action) : s.Happens p (a :: as) ↔ p s a ∨ (s.perform a).2.Happens p as :=
  exists_split_cons_iff (fun before b _ => p (s.after before) b) a as

/-- At some point of a run an action is taken of which the one relation holds, and behind
it none of which the other holds. -/
def HappensSince (p q : Session → Action → Prop) (s : Session) (as : List Action) : Prop :=
  ∃ before a behind, as = before ++ a :: behind ∧ p (s.after before) a ∧
    ¬ ((s.after before).perform a).2.Happens q behind

theorem not_happensSince_nil (p q : Session → Action → Prop) (s : Session) :
    ¬ s.HappensSince p q [] := by
  rintro ⟨before, a, behind, h, _⟩
  simp at h

/-- The one thing happens at the first action, and the other not behind it; or the one
happens later in the run, and the other not behind that. -/
theorem happensSince_cons_iff (p q : Session → Action → Prop) (s : Session) (a : Action)
    (as : List Action) :
    s.HappensSince p q (a :: as) ↔
      p s a ∧ ¬ (s.perform a).2.Happens q as ∨ (s.perform a).2.HappensSince p q as :=
  exists_split_cons_iff
    (fun before b behind => p (s.after before) b ∧ ¬ ((s.after before).perform b).2.Happens q behind)
    a as

/-! ## Renewal -/

/-- The service of a type that is kept, if there is one, was made of objects from
a certain one on. -/
structure Renewed (t : ServiceType) (n : ObjectId) (s : Session) : Prop where
  le_nextId : n ≤ s.nextId
  le_owned : ∀ {service}, s.services.get? t = some service → ∀ o ∈ service.owned, n ≤ o

/-- An action that lets go of every older service leaves the type renewed. -/
theorem renewed_perform {s : Session} (hs : s.Sound) {t : ServiceType} {n : ObjectId}
    (hn : n ≤ s.nextId) {a : Action}
    (h : ∀ service, (s.letGo a).services.get? t = some service → ∀ o ∈ service.owned, n ≤ o) :
    Renewed t n (s.perform a).2 where
  le_nextId := by
    have hgrows := (perform_grows hs a).nextId_le
    rw [nextId_letGo] at hgrows
    exact Nat.le_trans hn hgrows
  le_owned := by
    intro service hkept o ho
    rcases kept_or_made hs hkept with hbefore | ⟨_, hmakes⟩
    · exact h service hbefore o ho
    · have hnew := (hmakes.owned o ho).1
      rw [nextId_letGo] at hnew
      exact Nat.le_trans hn hnew

/-- Where an action lets go of the service of a type, the type is renewed from
then on. -/
theorem renewed_of_letGo {s : Session} (hs : s.Sound) {t : ServiceType} {a : Action}
    (h : (s.letGo a).services.get? t = none) : Renewed t s.nextId (s.perform a).2 := by
  refine renewed_perform hs (Nat.le_refl _) fun service hkept => ?_
  rw [h] at hkept
  cases hkept

/-- A type that was renewed stays so. -/
theorem Renewed.after {s : Session} {t : ServiceType} {n : ObjectId} (h : Renewed t n s)
    (hs : s.Sound) (as : List Action) : Renewed t n (s.after as) := by
  induction as generalizing s with
  | nil => exact h
  | cons a as ih =>
      refine ih (renewed_perform hs h.le_nextId fun service hkept => ?_) (hs.perform a)
      exact h.le_owned (get?_of_get?_letGo hkept)

end Session

end SingleFile
