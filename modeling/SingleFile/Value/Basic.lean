/-!
# Dynamic values

Templates, scripts, styles and settings arrive as values of any kind.  A value
is one of seven kinds; each kind has a display name, and some values count as
absent.

Main results:

- `isTruthy_text_iff`: a text counts as present exactly when it is not empty.
-/

namespace SingleFile

/-- A value of any kind.  The fields of an object keep their order. -/
inductive Value where
  | null
  | bool (b : Bool)
  | int (n : Int)
  | float (x : Float)
  | text (s : String)
  | list (items : List Value)
  | object (fields : List (String × Value))
deriving Inhabited

namespace Value

/-- The display name of a value's kind. -/
def kindName : Value → String
  | null => "NoneType"
  | bool _ => "bool"
  | int _ => "int"
  | float _ => "float"
  | text _ => "str"
  | list _ => "list"
  | object _ => "dict"

/-- Null, false, zero and everything empty count as absent; all else as
present. -/
def isTruthy : Value → Bool
  | null => false
  | bool b => b
  | int n => n != 0
  | float x => !(x == 0.0)
  | text s => !s.toList.isEmpty
  | list items => !items.isEmpty
  | object fields => !fields.isEmpty

/-- The text of a textual value. -/
def text? : Value → Option String
  | text s => some s
  | _ => none

/-- The truth value of a Boolean. -/
def bool? : Value → Option Bool
  | bool b => some b
  | _ => none

/-- The texts of a list of nothing else. -/
def texts? : Value → Option (List String)
  | list items => items.mapM text?
  | _ => none

/-- The texts of a list. -/
def ofTexts (ss : List String) : Value :=
  list (ss.map text)

/-- A text or null. -/
def ofText? : Option String → Value
  | none => null
  | some s => text s

@[simp]
theorem isTruthy_null : isTruthy null = false :=
  rfl

/-- A list of texts has these texts. -/
@[simp]
theorem texts?_ofTexts (ss : List String) : texts? (ofTexts ss) = some ss := by
  induction ss with
  | nil => rfl
  | cons s ss ih =>
      simp only [ofTexts, texts?] at ih
      simp [ofTexts, texts?, text?, ih]

/-- A text counts as present exactly when it is not empty. -/
theorem isTruthy_text_iff (s : String) : isTruthy (text s) = true ↔ s ≠ "" := by
  simp [isTruthy]

end Value

end SingleFile
