import SingleFile.CommandLine.Arguments
import SingleFile.Files
import SingleFile.Table

/-!
# Commands

Which command the arguments call for, and with which files.  The first argument
that is no option names the command, and everything after it is the command's
own.  Of an option that is given more than once the last value counts.

Paths are looked at before anything else is done: those of the given options in
the order in which the options were first given, and then the template.

Main results:

- `ofName?_name`: the name of a command calls for it.
- `parse_nil`: without arguments nothing is called for.
-/

namespace SingleFile.CommandLine

/-- The commands. -/
inductive Command where
  | compile
  | validate
deriving DecidableEq, Repr

namespace Command

/-- The name of a command. -/
def name : Command → String
  | compile => "compile"
  | validate => "validate"

/-- The command of a name. -/
def ofName? (s : String) : Option Command :=
  [compile, validate].find? fun c => c.name == s

/-- The options of a command. -/
def options : Command → List OptionKey
  | compile => [.script, .style, .format, .verbose, .help]
  | validate => [.format, .help]

/-- The name of a command calls for it. -/
@[simp]
theorem ofName?_name (c : Command) : ofName? c.name = some c := by
  cases c <;> decide

end Command

/-- A command and what its arguments say. -/
structure Invocation where
  command : Command
  options : Table OptionKey String
  positionals : List String
deriving DecidableEq, Repr

/-- What is called for: help, or a command. -/
inductive Call where
  | help
  | invoke (i : Invocation)
deriving DecidableEq, Repr

/-- Help is among the given options. -/
def Scanned.asksHelp (s : Scanned) : Bool :=
  s.given.any fun g => g.1 == .help

/-- What the arguments of a command call for. -/
def parseCommand (c : Command) (args : List String) : Except UsageError Call :=
  match scan c.options true args with
  | .error e => .error e
  | .ok s =>
      if s.asksHelp then .ok .help
      else .ok (.invoke ⟨c, Table.ofEntries s.given, s.positionals⟩)

/-- What arguments call for that begin with the name of no command: an option may
be among them that does not belong there. -/
def refuseCommand (name : String) (rest : List String) : Except UsageError Call :=
  match scan [.help] false (name :: rest) with
  | .error e => .error e
  | .ok s => if s.asksHelp then .ok .help else .error (.unknownCommand name)

/-- What arguments call for. -/
def parse (args : List String) : Except UsageError Call :=
  if args = [] then .error .noArguments
  else
    match scan [.help] false args with
    | .error e => .error e
    | .ok s =>
        if s.asksHelp then .ok .help
        else
          match s.positionals with
          | [] => .error .noCommand
          | name :: rest =>
              match Command.ofName? name with
              | some c => parseCommand c rest
              | none => refuseCommand name rest

/-- Without arguments nothing is called for. -/
@[simp]
theorem parse_nil : parse [] = .error .noArguments :=
  rfl

/-! ## The job of a command -/

/-- The formats of what a command prints. -/
inductive OutputFormat where
  | json
  | text
deriving DecidableEq, Repr

namespace OutputFormat

/-- The name of a format. -/
def name : OutputFormat → String
  | json => "json"
  | text => "text"

/-- Every format. -/
def all : List OutputFormat :=
  [json, text]

/-- The format of a name. -/
def ofName? (s : String) : Option OutputFormat :=
  all.find? fun f => f.name == s

@[simp]
theorem ofName?_name (f : OutputFormat) : ofName? f.name = some f := by
  cases f <;> decide

end OutputFormat

/-- What a command is to do: its files, the format of its output, and whether it
is to tell of its steps. -/
structure Job where
  command : Command
  template : String
  script : Option String
  style : Option String
  format : OutputFormat
  verbose : Bool
deriving DecidableEq, Repr

/-- The parameter that an option gives a file to. -/
def OptionKey.parameter? : OptionKey → Option Parameter
  | script => some .script
  | style => some .style
  | _ => none

/-- No file is found at the path that an option gives. -/
def pathError? (files : Files.Lookup) (o : OptionKey × String) : Option UsageError :=
  match o.1.parameter? with
  | some p => if (Files.content? files o.2).isSome then none else some (.badPath p o.2)
  | none => none

/-- The format that options ask for. -/
def formatOf (options : Table OptionKey String) : Except UsageError OutputFormat :=
  let name := (options.get? .format).getD OutputFormat.json.name
  match OutputFormat.ofName? name with
  | some f => .ok f
  | none => .error (.badFormat name)

/-- The job of an invocation, when its files are there. -/
def Invocation.job (i : Invocation) (files : Files.Lookup) : Except UsageError Job :=
  match i.options.findSome? (pathError? files), i.positionals with
  | some e, _ => .error e
  | none, [] => .error .missingTemplate
  | none, template :: extra =>
      if (Files.content? files template).isNone then .error (.badPath .template template)
      else if extra ≠ [] then .error (.extraArguments extra)
      else
        (formatOf i.options).map fun format =>
          { command := i.command
            template, format
            script := i.options.get? .script
            style := i.options.get? .style
            verbose := i.options.has .verbose }

/-- The paths that an invocation speaks of. -/
def Invocation.paths (i : Invocation) : List String :=
  i.positionals ++ (i.options.filter fun o => o.1.parameter?.isSome).map Prod.snd

end SingleFile.CommandLine
