import SingleFile.Failure
import SingleFile.Log.Logging

/-!
# Log files that are not opened

The system may refuse to open a log file: because its name holds the character
zero, because a directory stands in its place, because a file stands where its
directory should be, or for reasons of its own.  The configuration that selects
the file fails then, halfway: the threshold and the format are set and records
go to the open files, but there is no new one among them, the root threshold is
what it was, and logging is not disabled.

While files are selected and none is open, records that reach the root threshold
go to standard error if they are warnings at least.

Main results:

- `attempt_none`: when its file is not refused, a configuration is made whole.
- `attempt_of_isSettled`: a configuration that changes nothing opens no file.
- `attempt_of_not_isSettled`: what any other configuration leaves.
- `release_ne_nil_iff`: which records come out.
-/

namespace SingleFile.Log

/-! ## Refusals -/

/-- A failure of the system, by its number, about a path. -/
def systemFailure (kind : String) (number : Nat) (reason path : String) : Failure :=
  ⟨.other kind, "[Errno " ++ toString number ++ "] " ++ reason ++ ": " ++ Text.quoted path⟩

/-- The log file in whose place a path looks for a directory. -/
def Logging.enclosingFile? (l : Logging) (path : String) : Option String :=
  let directory := located (origin path ++ (Files.names path).dropLast)
  (l.openPath? directory).filter (l.handlers.map Handler.path).contains

/-- Why the system does not open a file for a path.  Paths are shown as seen from
the working directory or from the root. -/
def Logging.refusal? (l : Logging) (path : String) : Option Failure :=
  match l.openPath? path with
  | some file =>
      if file.toList.contains '\x00' then some ⟨.value, "embedded null byte"⟩
      else if (l.directory? (origin path) (Files.names path)).isSome then
        some (systemFailure "IsADirectoryError" 21 "Is a directory" file)
      else none
  | none =>
      (l.enclosingFile? path).map fun _ =>
        systemFailure "NotADirectoryError" 20 "Not a directory" (Files.shown path)

/-! ## Configurations that may fail -/

/-- The failure of a configuration, when the system gives an answer to the
opening of its log file.  One that changes nothing, or selects no file, asks for
none. -/
def Logging.failure? (l : Logging) (env : Environment) (r : Request)
    (refusal? : Option Failure) : Option Failure :=
  if l.isSettled env r || (r.fileIn env).isNone then none else refusal?

/-- Logging after a configuration whose log file is not opened. -/
def Logging.interrupt (l : Logging) (env : Environment) (r : Request) : Logging :=
  { l with
    threshold := thresholdOfLevel (r.levelIn env)
    format := r.formatIn env
    target := .files }

/-- Configures logging, when the system may refuse to open the log file. -/
def Logging.attempt (l : Logging) (env : Environment) (r : Request)
    (refusal? : Option Failure) : Except Failure (Option Record) × Logging :=
  match l.failure? env r refusal? with
  | some f => (.error f, l.interrupt env r)
  | none => (.ok (l.configure env r).2, (l.configure env r).1)

/-- When its file is not refused, a configuration is made whole. -/
@[simp]
theorem Logging.attempt_none (l : Logging) (env : Environment) (r : Request) :
    l.attempt env r none = (.ok (l.configure env r).2, (l.configure env r).1) := by
  have hfailure : l.failure? env r none = none := by
    unfold failure?
    split <;> rfl
  simp [attempt, hfailure]

/-- A configuration that changes nothing opens no file. -/
theorem Logging.attempt_of_isSettled {l : Logging} {env : Environment} {r : Request}
    (h : l.isSettled env r = true) (refusal? : Option Failure) :
    l.attempt env r refusal? = (.ok none, l) := by
  simp [attempt, failure?, configure, h]

/-- Any other configuration is carried out, only in part if it is refused its file. -/
theorem Logging.attempt_of_not_isSettled {l : Logging} {env : Environment} {r : Request}
    (h : l.isSettled env r = false) (refusal? : Option Failure) :
    (l.attempt env r refusal?).2 =
      if (r.fileIn env).isSome = true ∧ refusal?.isSome = true then l.interrupt env r
      else l.apply env r := by
  unfold attempt failure? configure
  cases r.fileIn env <;> cases refusal? <;> simp [h]

/-- A file at a path from the root is opened in its directory, or in the cache if that does
not exist. -/
example :
    let l : Logging := { directories := ["/var", "/var/log"] }
    l.openPath? "/var/log/a.log" = some "/var/log/a.log" ∧ l.openPath? "/a.log" = some "/a.log" ∧
      l.openPath? "/var/../lib/a.log" = none := by
  decide +kernel

/-- A directory, or a name that holds the character zero, is not opened. -/
example :
    let l : Logging := { directories := ["logs"] }
    l.refusal? "logs" =
        some ⟨.other "IsADirectoryError", "[Errno 21] Is a directory: 'logs'"⟩ ∧
      l.refusal? "logs/a\x00.log" = some ⟨.value, "embedded null byte"⟩ ∧
      l.refusal? "logs/a.log" = none := by
  decide +kernel

/-! ## Records -/

/-- What a record makes to be written while files are selected and none is open. -/
def Logging.lastResort (l : Logging) (r : Record) : List Entry :=
  if r.severity.rank < l.threshold ∨ r.severity.rank < l.rootThreshold ∨
      r.severity.rank < Severity.warning.rank then []
  else [⟨.standardError, l.format, r⟩]

/-- What a record makes to be written, also while files are selected and none is
open. -/
def Logging.release (l : Logging) (r : Record) : List Entry :=
  if l.target = .files ∧ l.handlers = [] then l.lastResort r else l.write r

/-- A record comes out if it reaches the threshold and, while files are selected,
the root threshold. -/
theorem Logging.release_ne_nil_iff {l : Logging}
    (h : l.handlers = [] → l.rootThreshold = Severity.warning.rank) (r : Record) :
    l.release r ≠ [] ↔ l.threshold ≤ r.severity.rank ∧
      (l.target = .files → l.rootThreshold ≤ r.severity.rank) := by
  unfold release
  split
  · rename_i hnone
    have hroot : l.rootThreshold = Severity.warning.rank := h hnone.2
    simp only [lastResort, hnone.1, hroot, or_self]
    split <;> simp <;> omega
  · rename_i hsome
    unfold write sinksFor
    split
    · simp
      omega
    · cases htarget : l.target with
      | stream sink => simp; omega
      | files =>
          have hhandlers : l.handlers ≠ [] := fun hnil => hsome ⟨htarget, hnil⟩
          dsimp only
          split <;> simp [hhandlers] <;> omega

end SingleFile.Log
