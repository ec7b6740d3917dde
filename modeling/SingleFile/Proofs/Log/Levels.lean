import SingleFile.Proofs.Log.Attempts

/-!
# Levels of configurations

The level that a configuration stands for: the highest one if it disables logging,
else the one that it names, else the one that a variable names, else that of errors.
A name that no severity has stands for errors in a configuration, and for nothing in a
variable.

Main results:

- Theorem `severityOfLevel?_eq_some_iff`: what a level names.
- Theorem `Call.exists_resolves`: every configuration stands for a level.
- Theorem `Call.resolves_iff`: the level that a configuration stands for is the
  threshold that it leaves.
-/

namespace SingleFile.Log

/-! ## Names of severities -/

/-- The level that a severity has as a name. -/
def Severity.levelName : Severity → String
  | debug => "DEBUG"
  | info => "INFO"
  | warning => "WARNING"
  | error => "ERROR"
  | critical => "CRITICAL"

/-- A level names a severity, in any capitals. -/
def Names (level : String) (s : Severity) : Prop :=
  level.toList.map capital = s.levelName.toList

instance (level : String) (s : Severity) : Decidable (Names level s) :=
  inferInstanceAs (Decidable (_ = _))

/-- A level has the severity that it names. -/
theorem severityOfLevel?_eq_some_iff (level : String) (s : Severity) :
    severityOfLevel? level = some s ↔ Names level s := by
  constructor
  · intro h
    unfold severityOfLevel? at h
    unfold Names
    split at h <;> simp only [Option.some.injEq, reduceCtorEq] at h
    all_goals
      rename_i hcapitals
      rw [← h, ← String.toList_ofList (l := level.toList.map capital), hcapitals]
      rfl
  · intro h
    unfold severityOfLevel?
    rw [h, String.ofList_toList]
    cases s <;> rfl

/-- A level has no severity exactly when it names none. -/
theorem severityOfLevel?_eq_none_iff (level : String) :
    severityOfLevel? level = none ↔ ∀ s, ¬ Names level s := by
  simp only [← severityOfLevel?_eq_some_iff, Option.eq_none_iff_forall_ne_some, ne_eq]

/-- A severity is told by its rank. -/
theorem Severity.rank_injective {s t : Severity} (h : s.rank = t.rank) : s = t := by
  cases s <;> cases t <;> simp_all [Severity.rank]

/-! ## What a configuration stands for -/

/-- A configuration stands for the level of a severity. -/
inductive Call.Resolves (c : Call) : Severity → Prop where
  /-- Disabling comes before everything else. -/
  | disabled : c.request.disable = true → Resolves c .critical
  /-- The level that is given names the severity. -/
  | named {level : String} {s : Severity} : c.request.disable = false →
      c.request.level = some level → Names level s → Resolves c s
  /-- A level that names no severity stands for errors. -/
  | unnamed {level : String} : c.request.disable = false →
      c.request.level = some level → (∀ s, ¬ Names level s) → Resolves c .error
  /-- No level is given, and the variable names the severity. -/
  | fromVariable {s : Severity} : c.request.disable = false → c.request.level = none →
      Names (c.environment.valueOf "SFCPLAY_LOG_LEVEL") s → Resolves c s
  /-- No level is given, and the variable names none. -/
  | standard : c.request.disable = false → c.request.level = none →
      (∀ s, ¬ Names (c.environment.valueOf "SFCPLAY_LOG_LEVEL") s) → Resolves c .error

namespace Call

/-- The threshold of a level is the rank of the severity that it names. -/
theorem thresholdOfLevel_of_names {level : String} {s : Severity} (h : Names level s) :
    thresholdOfLevel level = s.rank := by
  rw [thresholdOfLevel, (severityOfLevel?_eq_some_iff level s).mpr h]
  rfl

/-- The threshold of a level that names no severity is that of errors. -/
theorem thresholdOfLevel_of_forall {level : String} (h : ∀ s, ¬ Names level s) :
    thresholdOfLevel level = Severity.error.rank := by
  rw [thresholdOfLevel, (severityOfLevel?_eq_none_iff level).mpr h]
  rfl

/-- The threshold that a configuration asks for is that of the level which it names, or
which the variable names. -/
theorem asked_of_level {c : Call} {level : String} (h : c.request.level = some level) :
    c.asked = thresholdOfLevel level := by
  rw [asked, Request.levelIn, h]

/-- A configuration without a level of its own asks for that of the variable. -/
theorem asked_of_variable {c : Call} (h : c.request.level = none) :
    c.asked = thresholdOfLevel (c.environment.valueOf "SFCPLAY_LOG_LEVEL") := by
  unfold asked Request.levelIn
  rw [h]
  dsimp only
  split
  · rfl
  · rename_i hnone
    rw [Option.not_isSome_iff_eq_none] at hnone
    rw [thresholdOfLevel, thresholdOfLevel, hnone]
    rfl

/-- A configuration leaves the rank of the severity that it resolves to. -/
theorem Resolves.left_eq {c : Call} {s : Severity} (h : c.Resolves s) : c.left = s.rank := by
  cases h with
  | disabled hdisable => simp [left, hdisable]
  | named hdisable hlevel hnames =>
      simp [left, hdisable, asked_of_level hlevel, thresholdOfLevel_of_names hnames]
  | unnamed hdisable hlevel hnone =>
      simp [left, hdisable, asked_of_level hlevel, thresholdOfLevel_of_forall hnone]
  | fromVariable hdisable hlevel hnames =>
      simp [left, hdisable, asked_of_variable hlevel, thresholdOfLevel_of_names hnames]
  | standard hdisable hlevel hnone =>
      simp [left, hdisable, asked_of_variable hlevel, thresholdOfLevel_of_forall hnone]

theorem names_or_not (level : String) : (∃ s, Names level s) ∨ ∀ s, ¬ Names level s := by
  rw [← severityOfLevel?_eq_none_iff]
  cases h : severityOfLevel? level with
  | none => exact .inr rfl
  | some s => exact .inl ⟨s, (severityOfLevel?_eq_some_iff level s).mp h⟩

/-- Every configuration stands for a level. -/
theorem exists_resolves (c : Call) : ∃ s, c.Resolves s := by
  cases hdisable : c.request.disable with
  | true => exact ⟨_, .disabled hdisable⟩
  | false =>
      cases hlevel : c.request.level with
      | some level =>
          rcases names_or_not level with ⟨s, hs⟩ | hnone
          · exact ⟨s, .named hdisable hlevel hs⟩
          · exact ⟨_, .unnamed hdisable hlevel hnone⟩
      | none =>
          rcases names_or_not (c.environment.valueOf "SFCPLAY_LOG_LEVEL") with ⟨s, hs⟩ | hnone
          · exact ⟨s, .fromVariable hdisable hlevel hs⟩
          · exact ⟨_, .standard hdisable hlevel hnone⟩

/-- The level that a configuration stands for is the threshold that it leaves. -/
theorem resolves_iff (c : Call) (s : Severity) : c.Resolves s ↔ c.left = s.rank := by
  refine ⟨Resolves.left_eq, fun h => ?_⟩
  obtain ⟨t, ht⟩ := c.exists_resolves
  have hts : t = s := Severity.rank_injective (ht.left_eq.symm.trans h)
  exact hts ▸ ht

end Call

end SingleFile.Log
