import SingleFile.Environment
import SingleFile.Files
import SingleFile.Log.Format
import SingleFile.Log.Rotation

/-!
# Logging

Which records come out, where, and in which format.  Logging starts with a
threshold that only critical records reach, and is configured any number of
times.  A configuration that leaves the threshold as it is changes nothing,
unless it disables logging.

A log file is added to those that are open already; none is ever closed.  While
a file is selected, records go to all open files and to no stream, and they have
to reach the root threshold too.  A file in a directory that does not exist is
replaced by one in the cache.

A logger that is kept from an earlier use goes on with the configuration of that
time, but the open files and the root threshold are those of all.

Main results:

- `configure_threshold`: the threshold that a configuration leaves.
-/

namespace SingleFile.Log

/-- Where lines go. -/
inductive Sink where
  | standardError
  | stream (index : Nat)
  | file (path : String)
deriving DecidableEq, Repr

/-- An open log file. -/
structure Handler where
  path : String
  maxBytes : Nat
  backups : Nat := 5
deriving DecidableEq, Repr

/-- What records are written to: one stream, or the open files. -/
inductive Target where
  | stream (sink : Sink)
  | files
deriving DecidableEq, Repr

/-- The state of logging. -/
structure Logging where
  threshold : Nat := Severity.critical.rank
  rootThreshold : Nat := Severity.warning.rank
  handlers : List Handler := []
  format : Format := .console
  target : Target := .stream .standardError
  directories : List String := []
deriving DecidableEq, Repr

/-- What a configuration asks for. -/
structure Request where
  level : Option String := none
  file : Option String := none
  disable : Bool := false
  deployment : Option String := none
  rotation : Option String := none
  output : Sink := .standardError
deriving DecidableEq, Repr

/-! ## Resolving a request -/

/-- The capital form of a letter; the dotless small letter i has one in ASCII. -/
def capital (c : Char) : Char :=
  if c = 'ı' then 'I' else c.toUpper

/-- The severity that a level names, in any capitals. -/
def severityOfLevel? (level : String) : Option Severity :=
  match String.ofList (level.toList.map capital) with
  | "DEBUG" => some .debug
  | "INFO" => some .info
  | "WARNING" => some .warning
  | "ERROR" => some .error
  | "CRITICAL" => some .critical
  | _ => none

/-- The level of a request: its own, or a valid one of the environment, or the
level of errors. -/
def Request.levelIn (r : Request) (env : Environment) : String :=
  match r.level with
  | some level => level
  | none =>
      let level := env.valueOf "SFCPLAY_LOG_LEVEL"
      if (severityOfLevel? level).isSome then level else "ERROR"

/-- The threshold of a level; an unknown level is that of errors. -/
def thresholdOfLevel (level : String) : Nat :=
  ((severityOfLevel? level).getD .error).rank

/-- The log file of a request, or that of the environment. -/
def Request.fileIn (r : Request) (env : Environment) : Option String :=
  match r.file with
  | some file => some file
  | none =>
      let file := env.valueOf "SFCPLAY_LOG_FILE"
      if file = "" then none else some file

/-- The format that a request and the environment ask for. -/
def Request.formatIn (r : Request) (env : Environment) : Format :=
  let deployment := (r.deployment.getD (env.valueOf "SFCPLAY_LOG_ENV")).toLower
  if deployment = "container" ∨ deployment = "container_json" then .json
  else if deployment = "container_csv" then .keyValue
  else if ((Table.get? env "SFCPLAY_PRETTY_LOGS").getD "true").toLower = "true" then .console
  else .json

/-! ## Log files -/

/-- The directory from which the names of a path lead on.  The root is told by an empty
name, the working directory by none. -/
def origin (path : String) : List String :=
  if Files.isRooted path then [""] else []

/-- The directory above another one; the root is above itself. -/
def above (here : List String) : List String :=
  if here = [""] then here
  else if here.all (· == "..") then here ++ [".."] else here.dropLast

/-- The path of a directory, or of a file in it. -/
def located (here : List String) : String :=
  if here = [""] then "/" else Files.ofNames here

/-- The directory that names lead to from another one; each of them on the way
has to exist. -/
def Logging.directory? (l : Logging) (here : List String) : List String → Option (List String)
  | [] => some here
  | n :: ns =>
      if n = ".." then l.directory? (above here) ns
      else if l.directories.contains (located (here ++ [n])) then
        l.directory? (here ++ [n]) ns
      else none

/-- The file that is opened for a path: the directory that it lies in has to exist.
Directories are listed by their paths, seen from the working directory or from the root.
A path from the root is taken for one that leads elsewhere. -/
def Logging.openPath? (l : Logging) (path : String) : Option String :=
  let names := Files.names path
  (l.directory? (origin path) names.dropLast).map fun here =>
    located (here ++ names.getLast?.toList)

/-- The directories of the cache. -/
def cacheDirectories : List String :=
  ["cache", "cache/sfcplay"]

/-- The log file in the cache. -/
def cachePath : String :=
  "cache/sfcplay/sfcplay.log"

/-- Opens a log file, in the cache when its directory does not exist. -/
def Logging.openFile (l : Logging) (path : String) (maxBytes : Nat) : Logging :=
  match l.openPath? path with
  | some path => { l with handlers := l.handlers ++ [{ path, maxBytes }] }
  | none =>
      { l with
        handlers := l.handlers ++ [{ path := cachePath, maxBytes }]
        directories := l.directories ++ cacheDirectories.filter (!l.directories.contains ·) }

/-! ## Configuring -/

/-- A configuration leaves everything as it is. -/
def Logging.isSettled (l : Logging) (env : Environment) (r : Request) : Bool :=
  l.threshold == thresholdOfLevel (r.levelIn env) && !r.disable

/-- Logging after the parts of a request are set. -/
def Logging.apply (l : Logging) (env : Environment) (r : Request) : Logging :=
  let requested := thresholdOfLevel (r.levelIn env)
  let l := { l with
    threshold := if r.disable then Severity.critical.rank else requested
    format := r.formatIn env }
  match r.fileIn env with
  | none => { l with target := .stream r.output }
  | some path =>
      let l := l.openFile path (rotationBytes (r.rotation.getD ""))
      { l with target := .files, rootThreshold := requested }

/-- The record of a configuration. -/
def configuredRecord (level : String) : Record :=
  { event := "Logger set up with log level: " ++ level }

/-- Configures logging; also the record that is reported of it. -/
def Logging.configure (l : Logging) (env : Environment) (r : Request) :
    Logging × Option Record :=
  if l.isSettled env r then (l, none)
  else (l.apply env r, some (configuredRecord (r.levelIn env)))

/-- Logging as the program starts with it.  The first configuration finds none
before it, so nothing is settled yet and it is carried out. -/
def Logging.start (env : Environment) (directories : List String) : Logging :=
  ({ directories } : Logging).apply env { level := some "CRITICAL" }

/-! ## Writing -/

/-- The sinks that a record of a severity is written to, once for each time that
it is written. -/
def Logging.sinksFor (l : Logging) (severity : Severity) : List Sink :=
  if severity.rank < l.threshold then []
  else
    match l.target with
    | .stream sink => [sink]
    | .files =>
        if severity.rank < l.rootThreshold then [] else l.handlers.map fun h => .file h.path

/-- A record that is written, with its format and its sink. -/
structure Entry where
  sink : Sink
  format : Format
  record : Record

/-- What a record makes to be written. -/
def Logging.write (l : Logging) (r : Record) : List Entry :=
  (l.sinksFor r.severity).map fun sink => ⟨sink, l.format, r⟩

@[simp]
theorem Logging.openFile_threshold (l : Logging) (path : String) (maxBytes : Nat) :
    (l.openFile path maxBytes).threshold = l.threshold := by
  unfold openFile
  split <;> rfl

namespace Logging

theorem threshold_apply (l : Logging) (env : Environment) (r : Request) :
    (l.apply env r).threshold =
      if r.disable then Severity.critical.rank else thresholdOfLevel (r.levelIn env) := by
  unfold apply
  cases r.fileIn env <;> simp

theorem rootThreshold_apply (l : Logging) (env : Environment) (r : Request) :
    (l.apply env r).rootThreshold =
      if (r.fileIn env).isSome = true then thresholdOfLevel (r.levelIn env)
      else l.rootThreshold := by
  unfold apply
  cases r.fileIn env <;> simp

/-- Records go to the files exactly when a request selects one. -/
theorem target_apply_eq_files_iff (l : Logging) (env : Environment) (r : Request) :
    (l.apply env r).target = .files ↔ (r.fileIn env).isSome = true := by
  unfold apply
  cases r.fileIn env <;> simp

/-- No file is open exactly when none was and none is selected. -/
theorem handlers_apply_eq_nil_iff (l : Logging) (env : Environment) (r : Request) :
    (l.apply env r).handlers = [] ↔ r.fileIn env = none ∧ l.handlers = [] := by
  unfold apply
  cases r.fileIn env with
  | none => simp
  | some path =>
      dsimp only
      unfold openFile
      split <;> simp

/-- A configuration leaves the threshold that it asks for, or the highest one
when it disables logging. -/
theorem configure_threshold (l : Logging) (env : Environment) (r : Request) :
    (l.configure env r).1.threshold =
      if r.disable then Severity.critical.rank else thresholdOfLevel (r.levelIn env) := by
  unfold configure
  split
  · rename_i h
    simp only [isSettled, Bool.and_eq_true, beq_iff_eq, Bool.not_eq_true'] at h
    simp [h.1, h.2]
  · exact l.threshold_apply env r

end Logging

end SingleFile.Log
