/-!
# Issues of a reading

A value that is read as a record of some kind may have several issues.  An
issue has a place, the path from the outermost value to the bad one, and a
cause; each cause has a short code and a text.
-/

namespace SingleFile

/-- One step into a value. -/
inductive PathStep where
  | field (name : String)
  | item (index : Nat)
deriving DecidableEq, Repr

/-- What is wrong with a value that is read. -/
inductive IssueCause where
  /-- A required field is absent. -/
  | missing
  /-- The value is no text. -/
  | notText
  /-- The value is no list. -/
  | notList
  /-- The value is no tuple. -/
  | notTuple
  /-- The value is no dictionary. -/
  | notDictionary
  /-- The value is none of the given words. -/
  | notOneOf (words : List String)
  /-- The value does not read as a boolean. -/
  | unreadableBoolean
  /-- The value is of a kind that never reads as a boolean. -/
  | notBoolean
  /-- The value is no record of the named kind. -/
  | notRecord (name : String)
  /-- The value breaks a rule of its record. -/
  | rule (reason : String)
  /-- The record may not be changed. -/
  | frozen
  /-- The record has no field of that name. -/
  | noSuchField (name : String)
deriving DecidableEq, Repr

/-- Words in quotes, the last one after "or". -/
def quotedAlternatives (words : List String) : String :=
  let quoted := words.map fun w => "'" ++ w ++ "'"
  match quoted.getLast? with
  | none => ""
  | some last =>
      match quoted.dropLast with
      | [] => last
      | rest => ", ".intercalate rest ++ " or " ++ last

/-- The short code of a cause. -/
def IssueCause.code : IssueCause → String
  | missing => "missing"
  | notText => "string_type"
  | notList => "list_type"
  | notTuple => "tuple_type"
  | notDictionary => "dict_type"
  | notOneOf _ => "enum"
  | unreadableBoolean => "bool_parsing"
  | notBoolean => "bool_type"
  | notRecord _ => "model_type"
  | rule _ => "value_error"
  | frozen => "frozen_instance"
  | noSuchField _ => "no_such_attribute"

/-- The words for a cause. -/
def IssueCause.message : IssueCause → String
  | missing => "Field required"
  | notText => "Input should be a valid string"
  | notList => "Input should be a valid list"
  | notTuple => "Input should be a valid tuple"
  | notDictionary => "Input should be a valid dictionary"
  | notOneOf words => "Input should be " ++ quotedAlternatives words
  | unreadableBoolean => "Input should be a valid boolean, unable to interpret input"
  | notBoolean => "Input should be a valid boolean"
  | notRecord name => "Input should be a valid dictionary or instance of " ++ name
  | rule reason => "Value error, " ++ reason
  | frozen => "Instance is frozen"
  | noSuchField name => "Object has no attribute '" ++ name ++ "'"

/-- A cause and the place of the bad value. -/
structure Issue where
  path : List PathStep := []
  cause : IssueCause
deriving DecidableEq, Repr

/-- The issue as seen from one step further out. -/
def Issue.within (step : PathStep) (i : Issue) : Issue :=
  { i with path := step :: i.path }

end SingleFile
