import SingleFile.Component.Function
import SingleFile.Initializer
import SingleFile.Table

/-!
# Components

A component is what a compile makes: a template, at most one initializer, and
possibly a table of methods.  Its definition is the same with every function
rendered as source, together with the trust of all of them.

Main results:

- `trust_eq_none_iff`: a definition states a trust level exactly when it holds
  a function.
-/

namespace SingleFile

/-- A template with the functions that belong to it. -/
structure Component where
  template : String
  initializer : Option (Initializer ScriptFunction) := none
  methods : Option (Table String ScriptFunction) := none
deriving DecidableEq, Repr

namespace Component

/-- The initializer in the role of `setup`. -/
def setup (c : Component) : Option ScriptFunction :=
  Initializer.setup? c.initializer

/-- The initializer in the role of `data`. -/
def data (c : Component) : Option ScriptFunction :=
  Initializer.data? c.initializer

/-- The methods; none when there is no table. -/
def methodTable (c : Component) : Table String ScriptFunction :=
  c.methods.getD []

/-- There is at least one method. -/
def hasMethods (c : Component) : Bool :=
  !c.methodTable.isEmpty

/-- Every function of the component. -/
def functions (c : Component) : List ScriptFunction :=
  (c.initializer.map Initializer.function).toList ++ c.methodTable.map Prod.snd

/-- The common trust of functions: trusted when all of them are, and none when
there are none. -/
def commonTrust : List ScriptFunction → Option TrustLevel
  | [] => none
  | fs => some (if fs.all fun f => f.trust = .trusted then .trusted else .untrusted)

/-- The trust that the component is given as a whole. -/
def trust (c : Component) : Option TrustLevel :=
  commonTrust c.functions

/-- A component whose functions are given as source. -/
structure Definition where
  template : String
  setup : Option String
  data : Option String
  methods : Table String String
  trust : Option TrustLevel
deriving DecidableEq, Repr

/-- The component with its functions rendered. -/
def definition (c : Component) : Definition where
  template := c.template
  setup := c.setup.map ScriptFunction.toSource
  data := c.data.map ScriptFunction.toSource
  methods := c.methodTable.map fun (name, f) => (name, f.toSource)
  trust := c.trust

/-- A trust level is stated exactly when there is a function. -/
theorem trust_eq_none_iff (c : Component) : c.trust = none ↔ c.functions = [] := by
  unfold trust commonTrust
  split <;> simp_all

end Component

end SingleFile
