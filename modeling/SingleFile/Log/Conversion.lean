import SingleFile.Decimal.Layout
import SingleFile.Log.Pattern
import SingleFile.Log.PatternError
import SingleFile.Value.Literal

/-!
# Conversion of arguments

The letter of a place says what becomes of its argument: `s`, `r` and `a` make a
text of any value, `d`, `i` and `u` a whole number in decimal digits, `o`, `x`
and `X` one in another base, `e`, `f` and `g` a float, each also as a capital,
and `c` a single character.  What comes of it is then set within the width of
its place.

Main results:

- `length_set`: a place is as wide as it asks for, or as its text.
-/

namespace SingleFile.Log

/-! ## Setting a text within a width -/

/-- A converted argument.  A number has a sign and perhaps a mark of its base
before its body. -/
structure Converted where
  isNumber : Bool := false
  sign : List Char := []
  baseMark : List Char := []
  body : List Char
deriving DecidableEq, Repr

/-- The sign that is shown: a number without one may be given a plus or a
blank. -/
def Converted.shownSign (c : Converted) (flags : PlaceFlags) : List Char :=
  if c.isNumber && c.sign.isEmpty then
    if flags.showsPlus then ['+'] else if flags.showsBlank then [' '] else []
  else c.sign

/-- What stands before the body. -/
def Converted.head (c : Converted) (flags : PlaceFlags) : List Char :=
  c.shownSign flags ++ c.baseMark

/-- Sets a converted argument within a width: blanks before it, or after it, or
zeros between the head and the body of a number. -/
def Converted.set (c : Converted) (flags : PlaceFlags) (width : Nat) : List Char :=
  let head := c.head flags
  let gap := width - (head.length + c.body.length)
  if flags.alignsLeft then head ++ c.body ++ List.replicate gap ' '
  else if c.isNumber && flags.fillsZeros then head ++ Decimal.zeros gap ++ c.body
  else List.replicate gap ' ' ++ head ++ c.body

/-- A place is as wide as it asks for, or as its text. -/
theorem Converted.length_set (c : Converted) (flags : PlaceFlags) (width : Nat) :
    (c.set flags width).length =
      max width ((c.head flags).length + c.body.length) := by
  unfold set
  split
  · simp only [List.length_append, List.length_replicate]
    omega
  · split <;>
      simp only [Decimal.zeros, List.length_append, List.length_replicate] <;>
      omega

/-- The longest text that a place is ever filled with. -/
def maxLength : Nat :=
  Nat.pow 2 24

/-! ## Texts -/

/-- A text cut to the precision. -/
def cut (precision : Option Nat) (s : String) : Converted where
  body := match precision with
    | some n => s.toList.take n
    | none => s.toList

/-- A text in which characters beyond ASCII are written by their code points. -/
def asciiText (s : String) : String :=
  String.ofList (s.toList.flatMap fun c =>
    if c.toNat < 128 then [c] else Text.codePointEscape c.toNat)

/-- A value as one character: a text of one character, or the number of one. -/
def character : Value → Except PatternError Converted
  | .text s =>
      match s.toList with
      | [c] => .ok { body := [c] }
      | _ => .error .notCharacter
  | .int n =>
      if 0 ≤ n ∧ n < 0x110000 then .ok { body := [Char.ofNat n.toNat] }
      else .error .noSuchCharacter
  | .bool b => .ok { body := [Char.ofNat b.toNat] }
  | _ => .error .notCharacter

/-! ## Whole numbers -/

/-- A value as a whole number; what follows the point of a float is dropped. -/
def truncated (letter : Char) : Value → Except PatternError Int
  | .int n => .ok n
  | .bool b => .ok b.toNat
  | .float x =>
      match Decimal.decode x with
      | .finite isNegative size => .ok (Decimal.signed isNegative size.whole)
      | .infinite _ => .error .infinite
      | .notANumber => .error .notANumber
  | v => .error (.notNumber letter v.kindName)

/-- A value that is a whole number. -/
def integer (letter : Char) : Value → Except PatternError Int
  | .int n => .ok n
  | .bool b => .ok b.toNat
  | v => .error (.notInteger letter v.kindName)

/-- The digits of a whole number in a base, at least as many as the precision
asks for. -/
def inBase (base : Nat) (baseMark : List Char) (precision : Option Nat) (n : Int) : Converted :=
  let digits := Nat.toDigits base n.natAbs
  { isNumber := true
    sign := if n < 0 then ['-'] else []
    baseMark
    body := Decimal.zeros (precision.getD 0 - digits.length) ++ digits }

/-- The number with capital letters. -/
def Converted.capital (c : Converted) : Converted :=
  { c with baseMark := c.baseMark.map Char.toUpper, body := c.body.map Char.toUpper }

/-- The greatest precision of a whole number. -/
def maxDigitCount : Nat :=
  Nat.pow 2 31 - 4

/-- A whole number in a base, unless it is asked for with too many digits. -/
def inBase? (base : Nat) (baseMark : List Char) (precision : Option Nat) (n : Int) :
    Except PatternError Converted :=
  if maxDigitCount < precision.getD 0 then .error .manyDigits
  else if maxLength < precision.getD 0 then .error .tooLong
  else .ok (inBase base baseMark precision n)

/-! ## Floats -/

/-- A value as a float. -/
def real : Value → Except PatternError Float
  | .float x => .ok x
  | .bool b => .ok (Float.ofScientific b.toNat false 0)
  | .int n =>
      let size := Float.ofScientific n.natAbs false 0
      if size.isInf then .error .beyondFloats else .ok (if n < 0 then -size else size)
  | v => .error (.notReal v.kindName)

/-- A float, laid out by a rule for finite sizes. -/
def laidOut (layout : Decimal.Binary → List Char) (x : Float) : Converted :=
  let minus (isNegative : Bool) := if isNegative then ['-'] else []
  match Decimal.decode x with
  | .finite isNegative size =>
      { isNumber := true, sign := minus isNegative, body := layout size }
  | .infinite isNegative =>
      { isNumber := true, sign := minus isNegative, body := Value.floatWords.infinity.toList }
  | .notANumber => { isNumber := true, body := Value.floatWords.notANumber.toList }

/-- The layout of a float that a letter asks for. -/
def floatLayout (letter : Char) (flags : PlaceFlags) (precision : Nat) (b : Decimal.Binary) :
    List Char :=
  let numeral := match letter with
    | 'f' => b.fixed precision
    | 'e' => (b.significant (precision + 1)).scientific
    | _ => b.general (max precision 1) flags.isAlternate
  numeral.chars flags.isAlternate

/-- The number of places of a float when none is asked for. -/
def defaultPrecision : Nat := 6

/-- A value as a float in the layout that a letter asks for. -/
def inLayout (letter : Char) (flags : PlaceFlags) (precision : Option Nat) (v : Value) :
    Except PatternError Converted :=
  match real v with
  | .error e => .error e
  | .ok x =>
      let precision := precision.getD defaultPrecision
      if maxLength < precision then .error .tooLong
      else .ok (laidOut (floatLayout letter flags precision) x)

/-! ## Conversion by letters -/

/-- What becomes of an argument in a place with the given letter. -/
def convert (letter : Char) (position : Nat) (flags : PlaceFlags) (precision : Option Nat)
    (v : Value) : Except PatternError Converted :=
  match letter with
  | 's' => .ok (cut precision v.shown)
  | 'r' => .ok (cut precision v.literal)
  | 'a' => .ok (cut precision (asciiText v.literal))
  | 'c' => character v
  | 'd' | 'i' | 'u' => (truncated letter v).bind (inBase? 10 [] precision)
  | 'o' =>
      (integer letter v).bind (inBase? 8 (if flags.isAlternate then ['0', 'o'] else []) precision)
  | 'x' =>
      (integer letter v).bind (inBase? 16 (if flags.isAlternate then ['0', 'x'] else []) precision)
  | 'X' =>
      ((integer letter v).bind
        (inBase? 16 (if flags.isAlternate then ['0', 'x'] else []) precision)).map
        Converted.capital
  | 'e' | 'f' | 'g' => inLayout letter flags precision v
  | 'E' | 'F' | 'G' => (inLayout letter.toLower flags precision v).map Converted.capital
  | c => .error (.unknown c position)

end SingleFile.Log
