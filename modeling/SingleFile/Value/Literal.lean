import SingleFile.Decimal.Layout
import SingleFile.Text.Quoted
import SingleFile.Value.Basic

/-!
# Literal form of a value

The form in which log lines show a value: words for null and the booleans,
decimal integers, floats with as few digits as identify them, quoted texts, and
bracketed lists and objects whose members are set apart by a comma and a space.
-/

namespace SingleFile.Value

/-- The words for floats that are no numbers. -/
def floatWords : Decimal.Words :=
  ⟨"inf", "nan"⟩

mutual

/-- The literal form of a value. -/
def literal : Value → String
  | null => "None"
  | bool true => "True"
  | bool false => "False"
  | int n => toString n
  | float x => Decimal.shortestText floatWords x
  | text s => Text.quoted s
  | list items => "[" ++ ", ".intercalate (literals items) ++ "]"
  | object fields => "\x7b" ++ ", ".intercalate (fieldLiterals fields) ++ "\x7d"

/-- The literal forms of the items of a list. -/
def literals : List Value → List String
  | [] => []
  | v :: vs => literal v :: literals vs

/-- The literal forms of the fields of an object. -/
def fieldLiterals : List (String × Value) → List String
  | [] => []
  | (k, v) :: fs => (Text.quoted k ++ ": " ++ literal v) :: fieldLiterals fs

end

/-- The value as text: a text stands for itself, and all else is shown in its
literal form. -/
def shown : Value → String
  | text s => s
  | v => v.literal

end SingleFile.Value
