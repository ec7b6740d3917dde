import SingleFile.Compile.Records
import SingleFile.Log.Message
import SingleFile.Log.Opening
import SingleFile.Service.Action

/-!
# Sessions with a log

A session together with logging.  Whatever is done yields its outcome, the
state after it, and the log entries that were written meanwhile.

Main results:

- `emit_eq_ok_nil_of_lt`: an event below the threshold leaves no trace, even
  when its arguments do not fit.
-/

namespace SingleFile

open Log

/-- Why an event is not reported. -/
inductive EmitError where
  /-- The name stands for no way to report an event, whatever the threshold. -/
  | unknownMethod (threshold : Nat) (name : String)
  /-- A field is given that the event has already. -/
  | repeated (receiver name : String)
  /-- The arguments do not fit the event. -/
  | pattern (e : PatternError)
  /-- A detail cannot be shown. -/
  | detail (e : UnfitDetail)
deriving DecidableEq, Repr

/-- The words for an error. -/
def EmitError.message : EmitError → String
  | unknownMethod threshold name =>
      "'BoundLoggerFilteringAt" ++ ((Severity.ofRank? threshold).getD .critical).capitalName ++
        "' object has no attribute '" ++ name ++ "'"
  | repeated receiver name =>
      receiver ++ "() got multiple values for argument '" ++ name ++ "'"
  | pattern e => e.message
  | detail e => e.message

/-- A session, logging, and the sinks in the order in which they came to be. -/
structure LoggedSession where
  session : Session := {}
  logging : Logging := {}
  outputCount : Nat := 0
  sinks : List Sink := []

namespace LoggedSession

/-- What records make to be written, one after the other. -/
def written (p : LoggedSession) (rs : List Record) : List Entry :=
  rs.flatMap p.logging.release

/-- The sinks, followed by the open files that are not among them yet. -/
def withFiles (sinks : List Sink) (l : Logging) : List Sink :=
  (l.handlers.map fun h => Sink.file h.path).foldl
    (fun sinks f => if sinks.contains f then sinks else sinks ++ [f]) sinks

/-- Configures logging with an output stream of its own; this fails if the log file
is not opened. -/
def configure (p : LoggedSession) (r : Request) :
    Except Failure Unit × LoggedSession × List Entry :=
  let env := p.session.environment
  let output := Sink.stream p.outputCount
  let refusal? := (r.fileIn env).bind p.logging.refusal?
  let (outcome, logging) := p.logging.attempt env { r with output } refusal?
  let p := { p with
    logging
    outputCount := p.outputCount + 1
    sinks := withFiles (p.sinks ++ [output]) logging }
  match outcome with
  | .ok report => (.ok (), p, p.written report.toList)
  | .error f => (.error f, p, [])

/-- What a record makes to be written, unless it does not fit the format. -/
def writtenRecord (p : LoggedSession) (r : Record) : Except EmitError (List Entry) :=
  match r.unfitDetail? p.logging.format with
  | some e => .error (.detail e)
  | none => .ok (p.written [r])

/-- Reports an event of a severity with arguments; an event below the threshold
is not looked at. -/
def emit (p : LoggedSession) (severity : Severity) (event : String) (args : List Value)
    (fields : Table String Value) : Except EmitError (List Entry) :=
  if severity.rank < p.logging.threshold then .ok []
  else
    match eventText event args with
    | .error e => .error (.pattern e)
    | .ok event =>
        if fields.has "method_name" then
          .error (.repeated "BoundLoggerBase._proxy_to_logger" "method_name")
        else p.writtenRecord { severity, event, fields }

/-- What takes an event that is reported in some way, as messages call it. -/
def receiver (p : LoggedSession) (m : Method) : String :=
  match m, m.severity? with
  | .failure, _ => "exception"
  | _, none => "_nop"
  | _, some severity =>
      if severity.rank < p.logging.threshold then "_nop"
      else "_make_filtering_bound_logger.<locals>.make_method.<locals>.meth"

/-- The fields that an event always has; none of them may be given. -/
def fixedKeys : List String :=
  ["self", "event"]

/-- Reports an event in the way that a name stands for. -/
def report (p : LoggedSession) (method event : String) (args : List Value)
    (fields : Table String Value) : Except EmitError (List Entry) :=
  match Method.ofName? method with
  | none => .error (.unknownMethod p.logging.threshold method)
  | some m =>
      match (Table.keys fields).find? fixedKeys.contains with
      | some name => .error (.repeated (p.receiver m) name)
      | none =>
          match m with
          | .plain severity => p.emit severity event args fields
          | .failure =>
              p.emit .error event args
                (if fields.has "exc_info" then fields else fields ++ causedByFailure)
          | .silent => .ok []

/-- Compiles a template, a script and a style. -/
def compile (p : LoggedSession) (k : Compiler) (template script style : Value) :
    CompileResult × List Entry :=
  (k.compile template script style, p.written (k.compileRecords template script style))

/-- Compiles a template and a script. -/
def compileTemplate (p : LoggedSession) (k : Compiler) (template script : Value) :
    CompileResult × List Entry :=
  (k.compileTemplate template script, p.written (k.compileTemplateRecords template script))

/-- Does something to the services. -/
def perform (p : LoggedSession) (a : Action) :
    Except ServiceError Outcome × LoggedSession × List Entry :=
  let (outcome, session) := { p.session with journal := [] }.perform a
  let p := { p with session }
  (outcome, p, p.written session.journal)

/-- An event below the threshold leaves no trace, even when its arguments do not
fit. -/
theorem emit_eq_ok_nil_of_lt (p : LoggedSession) {severity : Severity}
    (h : severity.rank < p.logging.threshold) (event : String) (args : List Value)
    (fields : Table String Value) : p.emit severity event args fields = .ok [] := by
  simp [emit, h]

end LoggedSession

end SingleFile
