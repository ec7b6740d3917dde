/-!
# Floats as exact numbers

A finite float is a sign and a size, and the size is a whole number times a
power of two.  Everything that is written of a float is worked out from these
whole numbers, without rounding on the way.

Main results:

- `Binary.denominator_pos`: the size is a proper quotient.
- `Binary.numerator_eq_of_isWhole`: a whole size is its whole part.
-/

namespace SingleFile.Decimal

/-- The size of a finite float: `mantissa` times two to the power `exponent`. -/
structure Binary where
  mantissa : Nat
  exponent : Int
  /-- The float below is only half as far away as the float above. -/
  isNarrowBelow : Bool := false
deriving DecidableEq, Repr

/-- What a float stands for. -/
inductive Decoded where
  | finite (isNegative : Bool) (size : Binary)
  | infinite (isNegative : Bool)
  | notANumber
deriving DecidableEq, Repr

/-- What the bits of a float stand for: a sign, eleven bits of exponent and
fifty-two of fraction. -/
def decodeBits (bits : Nat) : Decoded :=
  let isNegative := decide (Nat.pow 2 63 ≤ bits)
  let exponent : Nat := bits / Nat.pow 2 52 % Nat.pow 2 11
  let fraction := bits % Nat.pow 2 52
  if exponent = 2047 then
    if fraction = 0 then .infinite isNegative else .notANumber
  else if exponent = 0 then .finite isNegative { mantissa := fraction, exponent := -1074 }
  else
    .finite isNegative
      { mantissa := Nat.pow 2 52 + fraction
        exponent := (exponent : Int) - 1075
        isNarrowBelow := fraction == 0 && 1 < exponent }

/-- What a float stands for. -/
def decode (x : Float) : Decoded :=
  decodeBits x.toBits.toNat

namespace Binary

/-- The upper part of the size as a quotient of whole numbers. -/
def numerator (b : Binary) : Nat :=
  b.mantissa * Nat.pow 2 b.exponent.toNat

/-- The lower part of the size as a quotient of whole numbers. -/
def denominator (b : Binary) : Nat :=
  Nat.pow 2 (-b.exponent).toNat

/-- The size is a proper quotient. -/
theorem denominator_pos (b : Binary) : 0 < b.denominator :=
  Nat.pow_pos (by decide)

/-- The size without what follows the point. -/
def whole (b : Binary) : Nat :=
  b.numerator / b.denominator

/-- Nothing follows the point. -/
def isWhole (b : Binary) : Bool :=
  b.numerator % b.denominator == 0

/-- A whole size is its whole part. -/
theorem numerator_eq_of_isWhole {b : Binary} (h : b.isWhole = true) :
    b.numerator = b.denominator * b.whole := by
  have hmod : b.numerator % b.denominator = 0 := by simpa [isWhole] using h
  have := Nat.div_add_mod b.numerator b.denominator
  rw [hmod] at this
  exact this.symm

end Binary

/-- A whole number with a sign. -/
def signed (isNegative : Bool) (n : Nat) : Int :=
  if isNegative then -(n : Int) else n

/-- The whole number that a float is. -/
def wholeNumber? (x : Float) : Option Int :=
  match decode x with
  | .finite isNegative size => if size.isWhole then some (signed isNegative size.whole) else none
  | _ => none

end SingleFile.Decimal
