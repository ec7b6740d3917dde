import SingleFile.Text.Blank
import SingleFile.Text.Utf8

/-!
# Arguments

What the arguments of a command say.  Options and positionals may come in any
order.  An option is given by its long name, with its value after an equals sign
or in the next argument, or by its letter; letters may share an argument, and
what follows the letter of an option that takes a value is that value.  Two
dashes end the options.
-/

namespace SingleFile.CommandLine

/-- The options of the commands. -/
inductive OptionKey where
  | script
  | style
  | format
  | verbose
  | help
deriving DecidableEq, Repr

namespace OptionKey

/-- The long name of an option. -/
def long : OptionKey → String
  | script => "--script"
  | style => "--style"
  | format => "--format"
  | verbose => "--verbose"
  | help => "--help"

/-- The letter of an option. -/
def letter? : OptionKey → Option Char
  | script => some 's'
  | style => none
  | format => some 'f'
  | verbose => some 'v'
  | help => none

/-- The option takes a value. -/
def takesValue : OptionKey → Bool
  | verbose | help => false
  | _ => true

end OptionKey

/-- What may be given as a file. -/
inductive Parameter where
  | template
  | script
  | style
deriving DecidableEq, Repr

/-- How messages name a parameter. -/
def Parameter.hint : Parameter → String
  | template => "TEMPLATE"
  | script => "--script"
  | style => "--style"

/-- Why the command line refuses to do anything. -/
inductive UsageError where
  /-- There are no arguments at all. -/
  | noArguments
  /-- There are options but no command. -/
  | noCommand
  /-- No command has the name. -/
  | unknownCommand (name : String)
  /-- No option has the name. -/
  | unknownOption (name : String)
  /-- The option is given without the value that it takes. -/
  | missingValue (option : OptionKey)
  /-- The option is given a value that it does not take. -/
  | uselessValue (option : OptionKey)
  /-- No template is given. -/
  | missingTemplate
  /-- There are positionals after the template. -/
  | extraArguments (args : List String)
  /-- No file is found at the path. -/
  | badPath (parameter : Parameter) (path : String)
  /-- The output format is unknown. -/
  | badFormat (format : String)
  /-- The file is not UTF-8. -/
  | notText (parameter : Parameter) (path : String) (error : Text.Utf8.DecodeError)
deriving DecidableEq, Repr

/-- Options with their values, and positionals, each in order. -/
structure Scanned where
  given : List (OptionKey × String) := []
  positionals : List String := []
deriving DecidableEq, Repr

/-! ## One argument -/

/-- What one argument says: it is a positional, or it gives options, the last of
which may await its value. -/
inductive Meaning where
  | positional
  | options (given : List (OptionKey × String)) (awaiting : Option OptionKey)
deriving DecidableEq, Repr

/-- The name and the value around the first equals sign of an argument. -/
def nameAndValue (arg : String) : String × Option String :=
  match Text.cutAt '=' arg.toList with
  | some (name, value) => (String.ofList name, some (String.ofList value))
  | none => (arg, none)

/-- What letters after a dash say. -/
def lettersMeaning (known : List OptionKey) : List Char → Except UsageError Meaning
  | [] => .ok (.options [] none)
  | c :: cs =>
      match known.find? fun k => k.letter? == some c with
      | none => .error (.unknownOption (String.ofList ['-', c]))
      | some k =>
          if k.takesValue then
            if cs = [] then .ok (.options [] (some k))
            else .ok (.options [(k, String.ofList cs)] none)
          else
            match lettersMeaning known cs with
            | .ok (.options given awaiting) => .ok (.options ((k, "") :: given) awaiting)
            | r => r

/-- What a long name with its value says. -/
def longMeaning (k : OptionKey) (value : Option String) : Except UsageError Meaning :=
  match k.takesValue, value with
  | true, some v => .ok (.options [(k, v)] none)
  | true, none => .ok (.options [] (some k))
  | false, some _ => .error (.uselessValue k)
  | false, none => .ok (.options [(k, "")] none)

/-- What an argument says where options are looked for. -/
def meaning (known : List OptionKey) (arg : String) : Except UsageError Meaning :=
  match arg.toList with
  | '-' :: c :: cs =>
      let (name, value) := nameAndValue arg
      match known.find? fun k => k.long == name with
      | some k => longMeaning k value
      | none =>
          if c = '-' then .error (.unknownOption name) else lettersMeaning known (c :: cs)
  | _ => .ok .positional

/-! ## All arguments -/

/-- What arguments say; the first positional ends the options unless the two may
be mixed. -/
def scan (known : List OptionKey) (mixed : Bool) : List String → Except UsageError Scanned
  | [] => .ok {}
  | "--" :: rest => .ok { positionals := rest }
  | arg :: rest =>
      match meaning known arg with
      | .error e => .error e
      | .ok .positional =>
          if mixed then
            (scan known mixed rest).map fun s => { s with positionals := arg :: s.positionals }
          else .ok { positionals := arg :: rest }
      | .ok (.options given none) =>
          (scan known mixed rest).map fun s => { s with given := given ++ s.given }
      | .ok (.options given (some k)) =>
          match rest with
          | [] => .error (.missingValue k)
          | v :: rest =>
              (scan known mixed rest).map fun s => { s with given := given ++ (k, v) :: s.given }

end SingleFile.CommandLine
