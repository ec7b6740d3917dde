import SingleFile.Proofs.Service.Runs

/-!
# The shared compiler

A process shares one compiler: whoever asks for it is given the same object,
until the manager is replaced, every service is let go of, or the compiler service
is made again.  After each of these the next compiler is a new object.

Main results:

- Theorem `kept_or_renewed`: behind a run the compiler service is still there, or it
  was let go of and every later one is made of newer objects.
- Theorem `getCompiler_shared_iff`: two answers are the same compiler exactly when
  nothing between them let go of it.
-/

namespace SingleFile

namespace Session

/-! ## Letting go of the compiler -/

/-- The actions that let go of the compiler service: the manager is replaced, every
service is let go of, or the compiler service is made again while there is one. -/
def LosesCompiler (s : Session) (a : Action) : Prop :=
  a = .newManager ∨ a = .teardown ∨ a = .update .compiler ∧ s.services.has .compiler = true

/-- An action that does not lose the compiler service keeps it. -/
theorem get?_letGo_of_not_losesCompiler {s : Session} {a : Action} (h : ¬ s.LosesCompiler a)
    {service : Service} (hkept : s.services.get? .compiler = some service) :
    (s.letGo a).services.get? .compiler = some service := by
  cases a with
  | newManager => exact absurd (.inl rfl) h
  | teardown => exact absurd (.inr (.inl rfl)) h
  | update t =>
      cases t with
      | compiler =>
          have hhas : s.services.has .compiler = true := by simp [Table.has, hkept]
          exact absurd (.inr (.inr ⟨rfl, hhas⟩)) h
      | settings =>
          have hne : ServiceType.settings ≠ .compiler := by decide
          exact (Table.get?_erase_of_ne _ hne).trans hkept
  | _ => exact hkept

/-- An action that loses the compiler service leaves none. -/
theorem get?_letGo_of_losesCompiler {s : Session} {a : Action} (h : s.LosesCompiler a) :
    (s.letGo a).services.get? .compiler = none := by
  rcases h with rfl | rfl | ⟨rfl, _⟩
  · rfl
  · rfl
  · exact Table.get?_erase_self _ _

/-- Behind a run, the compiler service is still there, or it was let go of and the
compiler service that is there, if any, is made of newer objects. -/
theorem kept_or_renewed {s : Session} (hs : s.Sound) {c : CompilerService}
    (hc : s.services.get? .compiler = some (.compiler c)) (as : List Action) :
    (¬ s.Happens LosesCompiler as ∧
      (s.after as).services.get? .compiler = some (.compiler c)) ∨
    (s.Happens LosesCompiler as ∧
      ∃ n, c.compiler < n ∧ Renewed .compiler n (s.after as)) := by
  induction as generalizing s with
  | nil => exact .inl ⟨s.not_happens_nil _, hc⟩
  | cons a as ih =>
      rw [happens_cons_iff, after_cons]
      by_cases ha : s.LosesCompiler a
      · have hrenewed : Renewed .compiler s.nextId (s.perform a).2 :=
          renewed_of_letGo hs (get?_letGo_of_losesCompiler ha)
        have hold : c.compiler < s.nextId :=
          hs.objects_lt hc c.compiler (by simp [Service.objects])
        exact .inr ⟨.inl ha, s.nextId, hold, hrenewed.after (hs.perform a) as⟩
      · have hnext : (s.perform a).2.services.get? .compiler = some (.compiler c) :=
          (perform_grows hs a).get? (get?_letGo_of_not_losesCompiler ha hc)
        rcases ih (hs.perform a) hnext with ⟨hnot, hkept⟩ | ⟨hlost, hrenewed⟩
        · exact .inl ⟨by simp [ha, hnot], hkept⟩
        · exact .inr ⟨.inr hlost, hrenewed⟩

/-! ## Asking for the compiler -/

/-- Where there is a compiler service, its compiler is given out, and nothing
changes. -/
theorem perform_getCompiler_of_kept {s : Session} (hs : s.Sound) {c : CompilerService}
    (hc : s.services.get? .compiler = some (.compiler c)) :
    s.perform .getCompiler = (.ok (.compiler c.compiler), s) := by
  obtain ⟨id, hm⟩ := hs.exists_manager hc
  rw [perform_of_managed hm, performWith, getCompilerService, get_of_has hc]
  rfl

/-- A compiler that is given out is that of the compiler service. -/
theorem exists_kept_of_getCompiler {s : Session} {i : ObjectId}
    (h : (s.perform .getCompiler).1 = .ok (.compiler i)) :
    ∃ c, (s.perform .getCompiler).2.services.get? .compiler = some (.compiler c) ∧
      c.compiler = i := by
  simp only [perform, performWith, getCompilerService] at h ⊢
  cases hget : s.withManager.get .compiler with
  | mk outcome s₁ =>
      rw [hget] at h
      cases outcome with
      | error e => cases h
      | ok service =>
          cases service with
          | settings d => cases h
          | compiler c =>
              cases h
              exact ⟨c, get_eq_ok hget, rfl⟩

/-- The compiler that a run is given out is given out again behind any actions that
do not let go of it, and any second answer is the same compiler exactly when no
action in between let go of it. -/
theorem getCompiler_shared_iff (env : Environment) (before between : List Action)
    (i : ObjectId) :
    let first := ((initial env).after before).perform .getCompiler
    let second := (first.2.after between).perform .getCompiler
    first.1 = .ok (.compiler i) →
      (¬ first.2.Happens LosesCompiler between → second.1 = .ok (.compiler i)) ∧
      ∀ j, second.1 = .ok (.compiler j) →
        (i = j ↔ ¬ first.2.Happens LosesCompiler between) := by
  intro first second hfirst
  have hs : first.2.Sound := (sound_after env before).perform .getCompiler
  obtain ⟨c, hc, rfl⟩ := exists_kept_of_getCompiler hfirst
  rcases kept_or_renewed hs hc between with ⟨hnot, hkept⟩ | ⟨hlost, n, hn, hrenewed⟩
  · have hsecond : second.1 = .ok (.compiler c.compiler) :=
      congrArg Prod.fst (perform_getCompiler_of_kept (hs.after between) hkept)
    refine ⟨fun _ => hsecond, fun j hj => ?_⟩
    rw [hsecond] at hj
    cases hj
    exact ⟨fun _ => hnot, fun _ => rfl⟩
  · refine ⟨fun hnot => absurd hlost hnot, fun j hj => ?_⟩
    obtain ⟨c', hc', rfl⟩ := exists_kept_of_getCompiler hj
    have hrenewed' : Renewed .compiler n second.2 :=
      hrenewed.after (hs.after between) [.getCompiler]
    have hnew : n ≤ c'.compiler := hrenewed'.le_owned hc' c'.compiler (by simp [Service.owned])
    have hne : c.compiler ≠ c'.compiler := Nat.ne_of_lt (Nat.lt_of_lt_of_le hn hnew)
    exact ⟨fun he => absurd he hne, fun hnot => absurd hlost hnot⟩

/-- The shared compiler outlives the settings service, but not its own service. -/
theorem getCompiler_shared_over_updates :
    let first := ((initial []).after []).perform .getCompiler
    first.1 = .ok (.compiler 4) ∧
      ((first.2.after [.update .settings]).perform .getCompiler).1 = .ok (.compiler 4) ∧
      ((first.2.after [.update .compiler]).perform .getCompiler).1 = .ok (.compiler 6) ∧
      first.2.Happens LosesCompiler [.update .compiler] := by
  intro first
  have hfirst : first.1 = .ok (.compiler 4) := rfl
  have hlater : ((first.2.after [.update .compiler]).perform .getCompiler).1 =
      .ok (.compiler 6) := rfl
  refine ⟨hfirst, (getCompiler_shared_iff [] [] [.update .settings] 4 hfirst).1 ?_, hlater, ?_⟩
  · simp [happens_cons_iff, not_happens_nil, LosesCompiler]
  · have hdifferent := (getCompiler_shared_iff [] [] [.update .compiler] 4 hfirst).2 6 hlater
    exact Classical.not_not.mp fun hnot => absurd (hdifferent.mpr hnot) (by decide)

end Session

end SingleFile
