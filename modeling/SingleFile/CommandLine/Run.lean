import SingleFile.CommandLine.Output
import SingleFile.Compile.Records
import SingleFile.Settings.Reading
import SingleFile.Text.Newline

/-!
# Running a command

Carries a command out: its settings come from the environment, its files are
read as UTF-8 with any line ends, and what it prints is the result of the
compiler.  A file that is not given reads as the empty text.

The first thing that is wrong decides how a command is refused: the arguments,
then the log file of a verbose compile, then the settings, then the files in the
order template, script, style.

Main results:

- `run_compile`: a compile that is not refused prints what the compiler returns
  for the texts of its files.
-/

namespace SingleFile.CommandLine

/-- What comes of a command: its exit code, what it prints, and what is reported
meanwhile. -/
structure Output where
  exitCode : Nat
  text : String
  records : List Log.Record := []

/-- Why a command is not carried out. -/
inductive Refusal where
  | usage (e : UsageError)
  /-- The log file that the variables select cannot be opened. -/
  | logging (f : Failure)
  | settings (issues : List Issue)
deriving DecidableEq, Repr

/-! ## Files -/

/-- The text of a file. -/
def fileText (files : Files.Lookup) (p : Parameter) (path : String) : Except UsageError String :=
  match Files.content? files path with
  | none => .error (.badPath p path)
  | some content =>
      match Text.Utf8.decode content with
      | .ok s => .ok (String.ofList (Text.unifyNewlines s))
      | .error e => .error (.notText p path e)

/-- The text of a file that may be absent. -/
def optionalText (files : Files.Lookup) (p : Parameter) : Option String → Except UsageError String
  | none => .ok ""
  | some path => fileText files p path

/-- The texts of the files that a command is given. -/
structure Sources where
  template : String
  script : String
  style : String
deriving DecidableEq, Repr

/-- The texts of a job's files. -/
def Job.sources (j : Job) (files : Files.Lookup) : Except UsageError Sources :=
  match fileText files .template j.template with
  | .error e => .error e
  | .ok template =>
      match optionalText files .script j.script with
      | .error e => .error e
      | .ok script =>
          (optionalText files .style j.style).map fun style => ⟨template, script, style⟩

/-! ## Commands -/

/-- What a compiler makes of the texts of a job. -/
def Job.output (j : Job) (k : Compiler) (s : Sources) : Output :=
  match j.command with
  | .compile =>
      let r := k.compile (.text s.template) (.text s.script) (.text s.style)
      { exitCode := exitCode r.isSuccess
        text := resultText r j.format
        records :=
          if j.verbose then k.compileRecords (.text s.template) (.text s.script) (.text s.style)
          else [] }
  | .validate =>
      let faults := Template.faults k.settings (.text s.template)
      { exitCode := exitCode faults.isEmpty, text := faultsText faults j.format }

/-- The failure to configure logging, where a job configures it, when the system gives an
answer to the opening of the log file. -/
def Job.logFailure? (j : Job) (refusal? : Option Failure) : Option Failure :=
  if j.verbose then refusal? else none

/-- Carries a job out. -/
def Job.run (j : Job) (env : Environment) (files : Files.Lookup)
    (refusal? : Option Failure := none) : Except Refusal Output :=
  match j.logFailure? refusal? with
  | some f => .error (.logging f)
  | none =>
      match Settings.ofEnvironment env with
      | .error issues => .error (.settings issues)
      | .ok settings =>
          match j.sources files with
          | .error e => .error (.usage e)
          | .ok s => .ok (j.output { settings } s)

/-- What help says. -/
def helpText : String :=
  ofLines
    ["Usage: sfcplay compile TEMPLATE [--script FILE] [--style FILE]",
      "         [--format json|text] [--verbose]",
      "       sfcplay validate TEMPLATE [--format json|text]"]

/-- Carries out what is called for. -/
def Call.run (c : Call) (env : Environment) (files : Files.Lookup)
    (refusal? : Option Failure := none) : Except Refusal Output :=
  match c with
  | .help => .ok { exitCode := 0, text := helpText }
  | .invoke i =>
      match i.job files with
      | .error e => .error (.usage e)
      | .ok j => j.run env files refusal?

/-- Carries out what arguments call for. -/
def run (args : List String) (env : Environment) (files : Files.Lookup)
    (refusal? : Option Failure := none) : Except Refusal Output :=
  match parse args with
  | .error e => .error (.usage e)
  | .ok c => c.run env files refusal?

/-! ## Outcomes -/

/-- The exit code of a refusal; settings that cannot be read, and a log file that cannot be
opened, are failures of the program itself. -/
def Refusal.exitCode : Refusal → Nat
  | usage _ => 2
  | logging _ => 1
  | settings _ => 1

/-- The exit code of what was called for. -/
def exitStatus : Except Refusal Output → Nat
  | .ok out => out.exitCode
  | .error e => e.exitCode

/-- What is printed of what was called for: of a refusal nothing. -/
def printedText : Except Refusal Output → String
  | .ok out => out.text
  | .error _ => ""

/-- A compile that is not refused prints what the compiler returns for the texts
of its files. -/
theorem run_compile {j : Job} {env : Environment} {files : Files.Lookup} {settings : Settings}
    {s : Sources} (hc : j.command = .compile) (hv : j.verbose = false)
    (hs : Settings.ofEnvironment env = .ok settings) (ht : j.sources files = .ok s) :
    j.run env files =
      .ok
        { exitCode := exitCode
            (({ settings } : Compiler).compile (.text s.template) (.text s.script)
              (.text s.style)).isSuccess
          text := resultText
            (({ settings } : Compiler).compile (.text s.template) (.text s.script) (.text s.style))
            j.format } := by
  simp [Job.run, Job.logFailure?, hs, ht, Job.output, hc, hv]

/-! ## Messages -/

/-- The words for a refusal of arguments. -/
def UsageError.message : UsageError → String
  | noArguments => helpText
  | noCommand => "Missing command."
  | unknownCommand name => "No such command " ++ Text.quoted name ++ "."
  | unknownOption name => "No such option: " ++ name
  | missingValue option => "Option '" ++ option.long ++ "' requires an argument."
  | uselessValue option => "Option '" ++ option.long ++ "' does not take a value."
  | missingTemplate => "Missing argument 'TEMPLATE'."
  | extraArguments args => "Got unexpected extra arguments (" ++ " ".intercalate args ++ ")"
  | badPath p path => p.hint ++ ": no file at " ++ Text.quoted path
  | badFormat _ =>
      "Output format must be one of: " ++ ", ".intercalate (OutputFormat.all.map OutputFormat.name)
  | notText _ path e =>
      Files.shown path ++ " is not valid UTF-8 text (" ++ e.fault.reason ++ " at byte " ++
        toString e.position ++ ")"

/-- What a refusal of arguments is about, where it is about one of them. -/
def UsageError.hint? : UsageError → Option String
  | badFormat _ => some OptionKey.format.long
  | notText p _ _ => some p.hint
  | _ => none

end SingleFile.CommandLine
