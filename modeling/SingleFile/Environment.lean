import SingleFile.Table

/-!
# The environment

The environment variables of a process, in the order in which they were last
set.

Main results:

- `valueOf_assign_self`: a variable has the value that it was last set to.
-/

namespace SingleFile

/-- Variables with their values. -/
abbrev Environment := Table String String

namespace Environment

/-- The value of a variable; the empty text when it is not set. -/
def valueOf (env : Environment) (name : String) : String :=
  (Table.get? env name).getD ""

/-- Sets a variable, which makes it the last one, or unsets it. -/
def assign (env : Environment) (name : String) : Option String → Environment
  | some value => Table.put (Table.erase env name) name value
  | none => Table.erase env name

/-- A variable has the value that it was last set to. -/
theorem valueOf_assign_self (env : Environment) (name : String) (value : Option String) :
    (env.assign name value).valueOf name = value.getD "" := by
  cases value <;> simp [assign, valueOf]

end Environment

end SingleFile
