import SingleFile.Component.Basic
import SingleFile.Failure

/-!
# Hosts

A host assembles a component from its parts.  It may reject the parts for
reasons of its own model, or fail in any other way.  The standard host rejects
exactly the parts that hold two initializers.

Main results:

- `standard_eq_error_iff`: what the standard host rejects.
-/

namespace SingleFile

/-- The parts that a host is asked to assemble. -/
structure Draft where
  template : String
  setup : Option ScriptFunction := none
  data : Option ScriptFunction := none
  methods : Option (Table String ScriptFunction) := none
deriving DecidableEq, Repr

/-- Why a host does not assemble. -/
inductive Rejection where
  /-- The parts do not make a component, for the given reasons. -/
  | invalid (reasons : List String)
  /-- The host failed. -/
  | failed (failure : Failure)
deriving DecidableEq, Repr

/-- Assembles a component from its parts. -/
abbrev Host := Draft → Except Rejection Component

/-- Why two initializers make no component. -/
def bothInitializersReason : String :=
  "A component cannot declare both setup() and data() initializers"

/-- The component that parts make; none when they hold two initializers. -/
def Draft.component? (d : Draft) : Option Component :=
  (Initializer.ofRoles? d.setup d.data).map fun initializer =>
    { template := d.template, initializer, methods := d.methods }

/-- A method table that is missing rather than empty. -/
def Draft.withoutEmptyMethods (d : Draft) : Draft :=
  { d with methods := d.methods.bind fun t => if t.isEmpty then none else some t }

namespace Host

/-- Assembles the parts as they are. -/
def standard : Host := fun d =>
  match d.withoutEmptyMethods.component? with
  | some c => .ok c
  | none => .error (.invalid [bothInitializersReason])

/-- Always fails. -/
def failing (f : Failure) : Host := fun _ =>
  .error (.failed f)

/-- Uses the initializer, if there is one, in both roles. -/
def doublingInitializer : Host := fun d =>
  let initializer := d.setup <|> d.data
  standard { d with setup := initializer, data := initializer }

/-- The standard host rejects exactly the parts that hold two initializers, and
for that reason. -/
theorem standard_eq_error_iff (d : Draft) (r : Rejection) :
    standard d = .error r ↔
      d.setup.isSome = true ∧ d.data.isSome = true ∧ r = .invalid [bothInitializersReason] := by
  unfold standard Draft.component? Draft.withoutEmptyMethods
  cases d.setup <;> cases d.data <;> simp only [Initializer.ofRoles?, Option.map_some,
    Option.map_none, Option.isSome_some, Option.isSome_none, reduceCtorEq, false_and, and_false,
    true_and, Except.error.injEq]
  exact eq_comm

end Host

end SingleFile
