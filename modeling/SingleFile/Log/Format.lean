import SingleFile.Log.Record
import SingleFile.Text.Newline
import SingleFile.Value.Literal

/-!
# Formats of log lines

A record is written in one of three formats: as a JSON object, as keys with
their values, or for reading at a console.  Every line carries the severity and
the event, and mostly a time.

At a console a record may take several lines: an event, a name or a short text
is shown as it stands, and a stack and an exception follow below.

Main results:

- `Record.get?_level_allFields`: the severity of a record wins over a field of
  that name.
- `Record.keyValueLines_ne_nil`: a record is never written as nothing.
-/

namespace SingleFile.Log

/-- How records are written. -/
inductive Format where
  | json
  | keyValue
  | console
deriving DecidableEq, Repr

/-! ## Fields -/

/-- The fields of a record, with the event and the severity among them. -/
def Record.allFields (r : Record) : Table String Value :=
  (Table.put r.fields "event" (.text r.event)).put "level" (.text r.severity.name)

/-- The parts of a line that come first, in this order. -/
def leadingKeys : List String :=
  ["timestamp", "level", "event"]

/-- The fields of a line, the leading ones first; a line without a time has no
field for it unless the record does. -/
def Record.lineFields (r : Record) (time : Option String) : Table String Value :=
  let fields := match time with
    | some time => Table.put r.allFields "timestamp" (.text time)
    | none => r.allFields
  (leadingKeys.filterMap fun k => (Table.get? fields k).map fun v => (k, v)) ++
    fields.filter fun e => !leadingKeys.contains e.1

/-! ## Keys with their values -/

/-- A record as keys with their values. -/
def Record.keyValueText (r : Record) (time : Option String) : String :=
  " ".intercalate ((r.lineFields time).map fun (k, v) => k ++ "=" ++ v.literal)

/-- The lines of a text that is written with a line feed after it. -/
def writtenLines (s : String) : List String :=
  (Text.lines (s.toList ++ ['\n'])).map String.ofList

/-- The lines that a record takes as keys with their values; a key may break a
line. -/
def Record.keyValueLines (r : Record) (time : Option String) : List String :=
  writtenLines (r.keyValueText time)

/-! ## Lines at a console -/

/-- A text in a colour. -/
def coloured (colour : String) (s : String) : String :=
  "\x1b[" ++ colour ++ "m" ++ s ++ "\x1b[0m"

/-- The characters for which a text is quoted at a console. -/
def needsQuotes (c : Char) : Bool :=
  [' ', '\t', '=', '\r', '\n', '"', '\''].contains c

/-- A value beside its key at a console. -/
def consoleValue : Value → String
  | .text s => if s.toList.any needsQuotes then Text.quoted s else s
  | v => v.literal

/-- A field at a console: a few known ones are shown without their key. -/
def consolePart (key : String) (v : Value) : String :=
  match key with
  | "timestamp" => coloured "2" v.shown
  | "level" => "[" ++ coloured "1" v.shown ++ "]"
  | "event" => coloured "1" v.shown
  | "logger" | "logger_name" => "[" ++ coloured "34" v.shown ++ "]"
  | key => coloured "36" key ++ "=" ++ coloured "35" (consoleValue v)

/-- The fields that are shown below the line of a record. -/
def detailKeys : List String :=
  ["stack", "exception", "exc_info"]

/-- A detail is of a kind that cannot be shown below a line. -/
structure UnfitDetail where
  kind : String
deriving DecidableEq, Repr

/-- The words for an unfit detail. -/
def UnfitDetail.message (e : UnfitDetail) : String :=
  "can only concatenate str (not \"" ++ e.kind ++ "\") to str"

/-- A detail on a line of its own, unless it is null. -/
def detailText : Value → Except UnfitDetail String
  | .null => .ok ""
  | .text s => .ok ("\n" ++ s)
  | v => .error ⟨v.kindName⟩

/-- What is set between a stack and what caused it. -/
def rule : String :=
  "\n\n" ++ String.ofList (List.replicate 79 '=') ++ "\n"

/-- The detail of a record. -/
def Record.detail (r : Record) (key : String) : Value :=
  (Table.get? r.fields key).getD .null

/-- A stack is followed by something that caused it. -/
def Record.isCaused (r : Record) : Bool :=
  (r.detail "exc_info").isTruthy ||
    match r.detail "exception" with
    | .null => false
    | _ => true

/-- What is shown below the line of a record. -/
def Record.detailsText (r : Record) : Except UnfitDetail String :=
  match detailText (r.detail "stack"), detailText (r.detail "exception") with
  | .error e, _ => .error e
  | .ok _, .error e => .error e
  | .ok stack, .ok exception =>
      .ok (stack ++ (if stack ≠ "" ∧ r.isCaused then rule else "") ++ exception)

/-- A record for reading at a console. -/
def Record.consoleText (r : Record) (time : Option String) : Except UnfitDetail String :=
  let fields := (r.lineFields time).filter fun e => !detailKeys.contains e.1
  let line := " ".intercalate (fields.map fun (k, v) => consolePart k v)
  r.detailsText.map fun details => line ++ details

/-- The lines that a record takes at a console; none if it cannot be shown. -/
def Record.consoleLines (r : Record) (time : Option String) : List String :=
  match r.consoleText time with
  | .ok s => writtenLines s
  | .error _ => []

/-- Why a record cannot be written in a format. -/
def Record.unfitDetail? (r : Record) : Format → Option UnfitDetail
  | .console =>
      match r.detailsText with
      | .ok _ => none
      | .error e => some e
  | _ => none

/-! ## Views -/

/-- The severity of the record wins over a field of that name. -/
theorem Record.get?_level_allFields (r : Record) :
    Table.get? r.allFields "level" = some (.text r.severity.name) := by
  simp [allFields]

/-- A text that is written takes a line at least. -/
theorem writtenLines_ne_nil (s : String) : writtenLines s ≠ [] := by
  simp [writtenLines, Text.lines_eq_nil_iff]

/-- A record is never written as nothing. -/
theorem Record.keyValueLines_ne_nil (r : Record) (time : Option String) :
    r.keyValueLines time ≠ [] :=
  writtenLines_ne_nil _

end SingleFile.Log
