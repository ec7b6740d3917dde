import SingleFile.Decimal.Digits

/-!
# Written floats

Lays the digits of a float out around a point.  A float is written in positions
or with an exponent of at least two digits; the shortest form chooses positions
for exponents from minus four to fifteen, and always shows a point or an
exponent.

Main results:

- `length_fraction_fixed`: a fixed number of places is written out in full.
-/

namespace SingleFile.Decimal

/-- Digits around a point, and perhaps an exponent. -/
structure Numeral where
  whole : List Char
  fraction : List Char := []
  exponent : Option Int := none
deriving DecidableEq, Repr

/-- Zeros in a row. -/
def zeros (n : Nat) : List Char :=
  List.replicate n '0'

/-- The digits in their positions. -/
def Significand.positional (s : Significand) : Numeral :=
  if s.exponent < 0 then
    { whole := ['0'], fraction := zeros (-s.exponent - 1).toNat ++ s.digits }
  else
    let count := s.exponent.toNat + 1
    { whole := s.digits.take count ++ zeros (count - s.digits.length)
      fraction := s.digits.drop count }

/-- The point after the first digit, and the exponent. -/
def Significand.scientific (s : Significand) : Numeral where
  whole := s.digits.take 1
  fraction := s.digits.drop 1
  exponent := some s.exponent

/-- So many places after the point. -/
def Binary.fixed (b : Binary) (places : Nat) : Numeral :=
  let digits := Nat.toDigits 10 (b.roundedUnits (-places))
  let padded := zeros (places + 1 - digits.length) ++ digits
  { whole := padded.take (padded.length - places)
    fraction := padded.drop (padded.length - places) }

/-- A fixed number of places is written out in full. -/
theorem Binary.length_fraction_fixed (b : Binary) (places : Nat) :
    (b.fixed places).fraction.length = places := by
  simp only [fixed, zeros, List.length_drop, List.length_append, List.length_replicate]
  omega

/-- Positions or an exponent, whichever suits so many significant digits; zeros
at the end are kept on demand. -/
def Binary.general (b : Binary) (count : Nat) (keepsZeros : Bool) : Numeral :=
  let s := b.significant count
  let shown := if keepsZeros then s else s.trimmed
  if -4 ≤ s.exponent ∧ s.exponent < count then shown.positional else shown.scientific

/-- An exponent with its sign and at least two digits. -/
def exponentDigits (e : Int) : List Char :=
  let digits := Nat.toDigits 10 e.natAbs
  (if e < 0 then '-' else '+') :: (zeros (2 - digits.length) ++ digits)

/-- The characters of a numeral; a point that nothing follows is shown on
demand. -/
def Numeral.chars (n : Numeral) (keepsPoint : Bool) : List Char :=
  n.whole ++
    (if n.fraction.isEmpty && !keepsPoint then [] else '.' :: n.fraction) ++
    match n.exponent with
    | some e => 'e' :: exponentDigits e
    | none => []

/-- The shortest form of a size. -/
def Binary.shortestNumeral (b : Binary) : Numeral :=
  let s := b.shortest
  if -4 ≤ s.exponent ∧ s.exponent < 16 then
    let n := s.positional
    if n.fraction.isEmpty then { n with fraction := ['0'] } else n
  else s.scientific

/-- The words for floats that are no numbers. -/
structure Words where
  infinity : String
  notANumber : String

/-- A minus sign where one is due. -/
def signText (isNegative : Bool) : String :=
  if isNegative then "-" else ""

/-- The shortest text of a float. -/
def shortestText (words : Words) (x : Float) : String :=
  match decode x with
  | .finite isNegative size =>
      signText isNegative ++ String.ofList (size.shortestNumeral.chars false)
  | .infinite isNegative => signText isNegative ++ words.infinity
  | .notANumber => words.notANumber

end SingleFile.Decimal
