import SingleFile.Decimal.Layout
import SingleFile.Text.Quoted
import SingleFile.Value.Basic

/-!
# JSON text of a value

Writes a value as JSON with two spaces per level.  An empty list or object
stays on its line.  Within a string, the quote, the backslash and the controls
below U+0020 are escaped, five of them by short forms; every other character
stands for itself.
-/

namespace SingleFile.Value

/-- The words for floats that are no numbers. -/
def jsonFloatWords : Decimal.Words :=
  ⟨"Infinity", "NaN"⟩

/-- One character inside a JSON string. -/
def jsonChar (c : Char) : List Char :=
  if c == '"' then ['\\', '"']
  else if c == '\\' then ['\\', '\\']
  else if c == '\n' then ['\\', 'n']
  else if c == '\r' then ['\\', 'r']
  else if c == '\t' then ['\\', 't']
  else if c.toNat == 8 then ['\\', 'b']
  else if c.toNat == 12 then ['\\', 'f']
  else if c.toNat < 32 then '\\' :: 'u' :: Text.hexDigits 4 c.toNat
  else [c]

/-- A JSON string. -/
def jsonString (s : String) : String :=
  String.ofList ('"' :: s.toList.flatMap jsonChar ++ ['"'])

/-- The blanks that a line of the given depth begins with. -/
def indent (depth : Nat) : String :=
  String.ofList (List.replicate (2 * depth) ' ')

/-- Members on lines of their own between two brackets. -/
def block (opener closer : String) (depth : Nat) (members : List String) : String :=
  opener ++ "\n" ++ ",\n".intercalate (members.map (indent (depth + 1) ++ ·)) ++ "\n" ++
    indent depth ++ closer

mutual

/-- The JSON text of a value that stands at the given depth. -/
def jsonAt (depth : Nat) : Value → String
  | null => "null"
  | bool true => "true"
  | bool false => "false"
  | int n => toString n
  | float x => Decimal.shortestText jsonFloatWords x
  | text s => jsonString s
  | list [] => "[]"
  | list (v :: vs) => block "[" "]" depth (jsonItems (depth + 1) (v :: vs))
  | object [] => "\x7b\x7d"
  | object (f :: fs) => block "\x7b" "\x7d" depth (jsonFields (depth + 1) (f :: fs))

/-- The JSON texts of the items of a list. -/
def jsonItems (depth : Nat) : List Value → List String
  | [] => []
  | v :: vs => jsonAt depth v :: jsonItems depth vs

/-- The JSON texts of the fields of an object. -/
def jsonFields (depth : Nat) : List (String × Value) → List String
  | [] => []
  | (k, v) :: fs => (jsonString k ++ ": " ++ jsonAt depth v) :: jsonFields depth fs

end

/-- The JSON text of a value. -/
def json (v : Value) : String :=
  jsonAt 0 v

end SingleFile.Value
