import SingleFile.Value.Literal

/-!
# Failures

A stage or a host that cannot go on reports a failure: a kind, which has a
name, and a message.  Two kinds decide how a compile goes on: a failure of
extraction is only warned about, and a failure of synthesis ends the compile
in good order.

Main results:

- `text_of_ne_lookup`: only the failure of a look-up shows its message quoted.
-/

namespace SingleFile

/-- The kinds of failure. -/
inductive FailureKind where
  | value
  | runtime
  | type
  | lookup
  | missingMember
  | compiler
  | template
  | extraction
  | synthesis
  /-- A kind of which no more than its name is known. -/
  | other (name : String)
deriving DecidableEq, Repr

/-- The name that a kind is shown by. -/
def FailureKind.name : FailureKind → String
  | value => "ValueError"
  | runtime => "RuntimeError"
  | type => "TypeError"
  | lookup => "KeyError"
  | missingMember => "AttributeError"
  | compiler => "CompilerError"
  | template => "TemplateValidationError"
  | extraction => "ScriptExtractionError"
  | synthesis => "ScriptSynthesisError"
  | other name => name

/-- A failure of this kind is part of a compile. -/
def FailureKind.isOfCompile : FailureKind → Bool
  | compiler | template | extraction | synthesis => true
  | _ => false

/-- A kind of failure and its message. -/
structure Failure where
  kind : FailureKind
  message : String
deriving DecidableEq, Repr

namespace Failure

/-- The text that a failure is shown by; the failure of a look-up shows the key
in its quoted form. -/
def text (f : Failure) : String :=
  match f.kind with
  | .lookup => Text.quoted f.message
  | _ => f.message

/-- The text of a failure that was given a second detail: both of them in their
literal forms. -/
def textOfPair (message : String) (detail : Value) : String :=
  "(" ++ Text.quoted message ++ ", " ++ detail.literal ++ ")"

/-- The failure to give a second detail to a kind that has no place for one. -/
def superfluousDetail : Failure :=
  ⟨.type, "CompilerError.__init__() takes 2 positional arguments but 3 were given"⟩

/-- The text of a failure, or the name of its kind when the text is empty. -/
def textOrName (f : Failure) : String :=
  if f.text = "" then f.kind.name else f.text

/-- The name and the text together. -/
def display (f : Failure) : String :=
  f.kind.name ++ "(" ++ f.text ++ ")"

/-- Only the failure of a look-up shows its message quoted. -/
theorem text_of_ne_lookup {f : Failure} (h : f.kind ≠ .lookup) : f.text = f.message := by
  obtain ⟨kind, message⟩ := f
  cases kind <;> simp_all [text]

end Failure

end SingleFile
