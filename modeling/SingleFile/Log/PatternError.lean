import SingleFile.Text.Quoted

/-!
# Patterns that cannot be filled

The reasons why the places of a pattern cannot be filled from the arguments of
an event, and the words for each of them.
-/

namespace SingleFile.Log

/-- Why arguments do not fit a pattern. -/
inductive PatternError where
  /-- A place has no argument. -/
  | tooFew
  /-- An argument has no place. -/
  | tooMany
  /-- A place names its argument, and the arguments have no names. -/
  | unnamed
  /-- No argument has the name. -/
  | missingName (name : String)
  /-- The name of an argument is not closed. -/
  | unclosedName
  /-- The pattern ends within a place. -/
  | incomplete
  /-- The letter of a place is none that converts. -/
  | unknown (letter : Char) (position : Nat)
  /-- A place for a number is given something else. -/
  | notNumber (letter : Char) (kind : String)
  /-- A place for a whole number is given something else. -/
  | notInteger (letter : Char) (kind : String)
  /-- A place for a float is given something else. -/
  | notReal (kind : String)
  /-- A place for a character is given something else. -/
  | notCharacter
  /-- A number is that of no character. -/
  | noSuchCharacter
  /-- A whole number is asked of an infinite float. -/
  | infinite
  /-- A whole number is asked of a float that is no number. -/
  | notANumber
  /-- A whole number is beyond all floats. -/
  | beyondFloats
  /-- A measure is given by something that is no whole number. -/
  | notMeasure
  /-- A width is written that no text has. -/
  | wideText
  /-- A precision is written that no number has. -/
  | preciseText
  /-- A width is given that no text has. -/
  | wideArgument
  /-- A precision is given that no number has. -/
  | preciseArgument
  /-- A whole number is asked for with too many digits. -/
  | manyDigits
  /-- The text would not fit into memory. -/
  | tooLong
deriving DecidableEq, Repr

/-- A letter as messages show it: a question mark stands for all that ASCII
cannot show. -/
def shownLetter (c : Char) : String :=
  if 31 ≤ c.toNat ∧ c.toNat ≤ 126 then String.singleton c else "?"

/-- The words for an error. -/
def PatternError.message : PatternError → String
  | tooFew => "not enough arguments for format string"
  | tooMany => "not all arguments converted during string formatting"
  | unnamed => "format requires a mapping"
  | missingName name => Text.quoted name
  | unclosedName => "incomplete format key"
  | incomplete => "incomplete format"
  | unknown c position =>
      "unsupported format character '" ++ shownLetter c ++ "' (0x" ++
        String.ofList (Nat.toDigits 16 c.toNat) ++ ") at index " ++ toString position
  | notNumber c kind =>
      "%" ++ String.singleton c ++ " format: a real number is required, not " ++ kind
  | notInteger c kind =>
      "%" ++ String.singleton c ++ " format: an integer is required, not " ++ kind
  | notReal kind => "must be real number, not " ++ kind
  | notCharacter => "%c requires int or char"
  | noSuchCharacter => "%c arg not in range(0x110000)"
  | infinite => "cannot convert float infinity to integer"
  | notANumber => "cannot convert float NaN to integer"
  | beyondFloats => "int too large to convert to float"
  | notMeasure => "* wants int"
  | wideText => "width too big"
  | preciseText => "precision too big"
  | wideArgument => "Python int too large to convert to C ssize_t"
  | preciseArgument => "Python int too large to convert to C int"
  | manyDigits => "precision too large"
  | tooLong => ""

end SingleFile.Log
