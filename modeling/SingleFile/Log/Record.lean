import SingleFile.Table
import SingleFile.Value.Basic

/-!
# Log records

What a part of the library reports while it works: an event of some severity
with named fields.

Main results:

- `Severity.ofName?_name`: the name of a severity names it.
- `Method.ofName?_name`: an event may be reported by the name of its severity.
-/

namespace SingleFile.Log

/-- How serious an event is. -/
inductive Severity where
  | debug
  | info
  | warning
  | error
  | critical
deriving DecidableEq, Repr

namespace Severity

/-- The rank of a severity; a threshold lets a rank through that reaches its
own. -/
def rank : Severity → Nat
  | debug => 10
  | info => 20
  | warning => 30
  | error => 40
  | critical => 50

/-- The name of a severity within records. -/
def name : Severity → String
  | debug => "debug"
  | info => "info"
  | warning => "warning"
  | error => "error"
  | critical => "critical"

/-- The severity that a name within records stands for. -/
def ofName? (s : String) : Option Severity :=
  [debug, info, warning, error, critical].find? fun v => v.name == s

/-- The name of a severity names it. -/
@[simp]
theorem ofName?_name (v : Severity) : ofName? v.name = some v := by
  cases v <;> decide

/-- The name of a threshold in messages. -/
def capitalName : Severity → String
  | debug => "Debug"
  | info => "Info"
  | warning => "Warning"
  | error => "Error"
  | critical => "Critical"

/-- The severity of a rank. -/
def ofRank? (rank : Nat) : Option Severity :=
  [debug, info, warning, error, critical].find? fun v => v.rank == rank

@[simp]
theorem ofRank?_rank (v : Severity) : ofRank? v.rank = some v := by
  cases v <;> decide

end Severity

/-- The ways to report an event. -/
inductive Method where
  /-- As an event of a severity. -/
  | plain (s : Severity)
  /-- As an error that a failure caused. -/
  | failure
  /-- Without any severity; such an event is never written. -/
  | silent
deriving DecidableEq, Repr

/-- The way to report an event that a name stands for: the name of a severity,
or one of a few others. -/
def Method.ofName? (name : String) : Option Method :=
  match Severity.ofName? name with
  | some s => some (.plain s)
  | none =>
      match name with
      | "msg" => some (.plain .info)
      | "warn" => some (.plain .warning)
      | "fatal" => some (.plain .critical)
      | "exception" => some .failure
      | "notset" => some .silent
      | _ => none

/-- The severity of the events that are reported in this way. -/
def Method.severity? : Method → Option Severity
  | plain s => some s
  | failure => some .error
  | silent => none

/-- An event may be reported by the name of its severity. -/
theorem Method.ofName?_name (s : Severity) : ofName? s.name = some (.plain s) := by
  simp [ofName?]

/-- An event with its severity and fields. -/
structure Record where
  severity : Severity := .debug
  event : String
  fields : Table String Value := []

/-- The field by which a record says that a failure caused it. -/
def causedByFailure : Table String Value :=
  [("exc_info", .bool true)]

end SingleFile.Log
