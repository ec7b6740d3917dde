import SingleFile.Settings.Basic
import SingleFile.Template.Directives
import SingleFile.Template.Tags
import SingleFile.Value.Basic

/-!
# Checking a template

A template passes when it is a text that is not blank, its tags are balanced in
number, and every directive that needs a value has one.  A text that is not
blank is checked for the last two together; any other template has one fault.

Main results:

- `faults_eq_nil_iff`: exactly when a value is a template without fault.
-/

namespace SingleFile.Template

/-- What is wrong with a template. -/
inductive Fault where
  /-- The template is no text but a value of another kind. -/
  | notText (kind : String)
  /-- The template is blank. -/
  | empty
  /-- More tags are opened than closed, or fewer. -/
  | unmatchedTags
  /-- Directives that lack their values. -/
  | invalidDirectives (directives : List String)
deriving DecidableEq, Repr

/-- The words for a fault. -/
def Fault.message : Fault → String
  | notText kind => "Template validation error: expected template text, got " ++ kind
  | empty => "Template cannot be empty"
  | unmatchedTags => "Unmatched HTML tags detected"
  | invalidDirectives ds => "Invalid directive syntax: " ++ ", ".intercalate ds

/-- The directives of a template that lack their values, under given settings. -/
def badDirectives (settings : Settings) (template : String) : List String :=
  (invalidDirectives settings.directivePrefix.toList
    (settings.valuelessDirectives.map String.toList) template.toList).map String.ofList

/-- The fault of the tags. -/
def tagFaults (template : String) : List Fault :=
  if tagImbalance template.toList = 0 then [] else [.unmatchedTags]

/-- The fault of the directives. -/
def directiveFaults (settings : Settings) (template : String) : List Fault :=
  match badDirectives settings template with
  | [] => []
  | ds => [.invalidDirectives ds]

/-- The faults of a text. -/
def textFaults (settings : Settings) (template : String) : List Fault :=
  if Text.isBlankString template then [.empty]
  else tagFaults template ++ directiveFaults settings template

/-- The faults of a template of any kind. -/
def faults (settings : Settings) : Value → List Fault
  | .text template => textFaults settings template
  | v => [.notText v.kindName]

/-- No directive is reported exactly when none is bad. -/
theorem directiveFaults_eq_nil_iff (settings : Settings) (template : String) :
    directiveFaults settings template = [] ↔ badDirectives settings template = [] := by
  unfold directiveFaults
  split <;> simp_all

/-- A value is a template without fault when it is a text that is not blank,
with as many tags closed as opened and no directive that lacks its value. -/
theorem faults_eq_nil_iff (settings : Settings) (v : Value) :
    faults settings v = [] ↔
      ∃ t, v = .text t ∧ Text.isBlankString t = false ∧ tagImbalance t.toList = 0 ∧
        badDirectives settings t = [] := by
  cases v with
  | text t =>
      by_cases h : Text.isBlankString t <;>
        simp [faults, textFaults, h, tagFaults, directiveFaults_eq_nil_iff]
  | _ => simp [faults]

end SingleFile.Template
