import SingleFile.Log.Opening

/-!
# Attempts to configure logging

A program configures logging when it starts and any number of times after that.  Each
time it finds other variables and directories, and the system may refuse to open the log
file that is selected.

Main results:

- Theorem `tried_of_not_isCarriedOut`: a configuration that asks for the threshold in
  force changes nothing.
- Theorem `tried_of_isRefused`, `tried_of_isCarriedOut`: what any other one leaves.
- Theorem `threshold_tried`: the threshold after a configuration.
-/

namespace SingleFile.Log

/-! ## Configurations -/

/-- A configuration and what it finds: the variables, and the directories that exist.
What it names as its output is a stream and no log file. -/
structure Call where
  request : Request
  environment : Environment := []
  directories : List String := []
  output_ne_file : ∀ file, request.output ≠ .file file := by nofun

namespace Call

/-- The threshold that a configuration asks for. -/
def asked (c : Call) : Nat :=
  thresholdOfLevel (c.request.levelIn c.environment)

/-- The threshold that is in force after a configuration, carried out or not. -/
def left (c : Call) : Nat :=
  if c.request.disable then Severity.critical.rank else c.asked

/-- The configuration by which logging starts. -/
def first (environment : Environment) (directories : List String) : Call :=
  { request := { level := some "CRITICAL" }, environment, directories }

end Call

/-- A configuration, what it finds, and the failure to open its log file if the system
refuses that. -/
structure Attempt extends Call where
  refusal? : Option Failure := none

namespace Attempt

/-- A configuration selects a log file. -/
def SelectsFile (a : Attempt) : Prop :=
  (a.request.fileIn a.environment).isSome = true

instance (a : Attempt) : Decidable a.SelectsFile :=
  inferInstanceAs (Decidable (_ = true))

/-- A configuration is refused its log file. -/
def IsRefused (a : Attempt) : Prop :=
  a.SelectsFile ∧ a.refusal?.isSome = true

instance (a : Attempt) : Decidable a.IsRefused :=
  inferInstanceAs (Decidable (_ ∧ _))

/-- A configuration is carried out under a threshold if it asks for another one, or
disables logging. -/
def IsCarriedOut (threshold : Nat) (a : Attempt) : Prop :=
  a.request.disable = true ∨ a.asked ≠ threshold

instance (threshold : Nat) (a : Attempt) : Decidable (a.IsCarriedOut threshold) :=
  inferInstanceAs (Decidable (_ ∨ _))

/-- The threshold that a configuration leaves when it is carried out.  One that is refused
its log file does not come to disabling. -/
def leaves (a : Attempt) : Nat :=
  if a.IsRefused then a.asked else a.left

/-- The configuration by which logging starts.  The program runs on only if it is not
refused its file. -/
def first (environment : Environment) (directories : List String) : Attempt :=
  { Call.first environment directories with }

end Attempt

namespace Logging

/-- Logging after an attempt. -/
def tried (l : Logging) (a : Attempt) : Logging :=
  ({ l with directories := a.directories }.attempt a.environment a.request a.refusal?).2

/-- Logging after attempts. -/
def afterAttempts (l : Logging) (as : List Attempt) : Logging :=
  as.foldl tried l

/-! ## One attempt -/

/-- No severity is above that of critical records. -/
theorem rank_le_critical (s : Severity) : s.rank ≤ Severity.critical.rank := by
  cases s <;> decide

/-- A configuration is settled exactly when it is not carried out. -/
theorem isSettled_eq_false_iff (l : Logging) (a : Attempt) :
    { l with directories := a.directories }.isSettled a.environment a.request = false ↔
      a.IsCarriedOut l.threshold := by
  simp only [isSettled, Bool.and_eq_false_imp, beq_iff_eq, Bool.not_eq_false',
    Attempt.IsCarriedOut, Call.asked]
  constructor
  · intro h
    by_cases hthreshold : l.threshold = thresholdOfLevel (a.request.levelIn a.environment)
    · exact .inl (h hthreshold)
    · exact .inr (Ne.symm hthreshold)
  · rintro (hdisable | hasked) hthreshold
    · exact hdisable
    · exact absurd hthreshold.symm hasked

/-- A configuration that asks for the threshold in force changes nothing. -/
theorem tried_of_not_isCarriedOut {l : Logging} {a : Attempt}
    (h : ¬ a.IsCarriedOut l.threshold) : l.tried a = { l with directories := a.directories } := by
  have hsettled : { l with directories := a.directories }.isSettled a.environment a.request =
      true := by
    rw [← Bool.not_eq_false, isSettled_eq_false_iff]
    exact h
  rw [tried, attempt_of_isSettled hsettled]

/-- A configuration that is carried out and refused its file is left halfway. -/
theorem tried_of_isRefused {l : Logging} {a : Attempt} (h : a.IsCarriedOut l.threshold)
    (hrefused : a.IsRefused) :
    l.tried a = { l with directories := a.directories }.interrupt a.environment a.request := by
  rw [tried, attempt_of_not_isSettled ((isSettled_eq_false_iff l a).mpr h)]
  exact if_pos hrefused

/-- A configuration that is carried out and not refused its file is made whole. -/
theorem tried_of_isCarriedOut {l : Logging} {a : Attempt} (h : a.IsCarriedOut l.threshold)
    (hopened : ¬ a.IsRefused) :
    l.tried a = { l with directories := a.directories }.apply a.environment a.request := by
  rw [tried, attempt_of_not_isSettled ((isSettled_eq_false_iff l a).mpr h)]
  exact if_neg hopened

/-- A configuration leaves its own threshold if it is carried out, else the one before. -/
theorem threshold_tried (l : Logging) (a : Attempt) :
    (l.tried a).threshold = if a.IsCarriedOut l.threshold then a.leaves else l.threshold := by
  split
  · rename_i hcarried
    by_cases hrefused : a.IsRefused
    · rw [tried_of_isRefused hcarried hrefused, Attempt.leaves, if_pos hrefused]
      rfl
    · rw [tried_of_isCarriedOut hcarried hrefused, threshold_apply, Attempt.leaves,
        if_neg hrefused]
      rfl
  · rename_i hcarried
    rw [tried_of_not_isCarriedOut hcarried]

end Logging

end SingleFile.Log
