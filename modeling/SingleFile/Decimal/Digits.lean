import SingleFile.Decimal.Binary

/-!
# Decimal digits of a float

Three ways to choose the digits that a float is written with: so many
significant digits, so many places after the point, or as few digits as still
read back as the same float.  A float that lies halfway between two candidates
goes to the even one.

Main results:

- `roundedQuotient_near`: a rounded quotient is within half a unit.
- `roundedQuotient_even_of_tie`: halfway, the even number is chosen.
- `readsBack_of_shortestOn?`: what the search for few digits finds reads back.
-/

namespace SingleFile.Decimal

/-! ## Rounding -/

/-- A quotient rounded to the nearest whole number, to the even one halfway. -/
def roundedQuotient (n d : Nat) : Nat :=
  if 2 * (n % d) < d ∨ (2 * (n % d) = d ∧ n / d % 2 = 0) then n / d else n / d + 1

/-- A rounded quotient is within half a unit. -/
theorem roundedQuotient_near (n : Nat) {d : Nat} (h : 0 < d) :
    2 * (roundedQuotient n d * d) ≤ 2 * n + d ∧ 2 * n ≤ 2 * (roundedQuotient n d * d) + d := by
  have hdiv : d * (n / d) + n % d = n := Nat.div_add_mod n d
  have hlt : n % d < d := Nat.mod_lt _ h
  have hcomm : n / d * d = d * (n / d) := Nat.mul_comm _ _
  have hsucc : (n / d + 1) * d = d * (n / d) + d := by
    rw [Nat.add_mul, Nat.one_mul, hcomm]
  unfold roundedQuotient
  split
  · rw [hcomm]
    omega
  · rw [hsucc]
    omega

/-- Halfway, the even number is chosen. -/
theorem roundedQuotient_even_of_tie {n d : Nat} (h : 2 * (n % d) = d) :
    roundedQuotient n d % 2 = 0 := by
  unfold roundedQuotient
  split <;> omega

/-! ## Digits with an exponent -/

/-- Digits, the first of which counts ten to the power `exponent`. -/
structure Significand where
  digits : List Char
  exponent : Int
deriving DecidableEq, Repr

/-- The digits without zeros at the end; the first digit is kept. -/
def Significand.trimmed (s : Significand) : Significand :=
  match s.digits with
  | [] => s
  | c :: cs => { s with digits := c :: (cs.reverse.dropWhile (· == '0')).reverse }

/-- The exponent of the first digit of a quotient. -/
def leadingExponent (n d : Nat) : Int :=
  if d ≤ n then ((Nat.toDigits 10 (n / d)).length : Int) - 1
  else -((Nat.toDigits 10 ((d - 1) / n)).length : Int)

/-- The upper part of a quotient that counts units of ten to the power `g`. -/
def unitsAbove (n : Nat) (g : Int) : Nat :=
  n * Nat.pow 10 (-g).toNat

/-- The lower part of a quotient that counts units of ten to the power `g`. -/
def unitsBelow (d : Nat) (g : Int) : Nat :=
  d * Nat.pow 10 g.toNat

/-- The nearest number of units of ten to the power `g`. -/
def Binary.roundedUnits (b : Binary) (g : Int) : Nat :=
  roundedQuotient (unitsAbove b.numerator g) (unitsBelow b.denominator g)

/-- The given number of significant digits. -/
def Binary.significant (b : Binary) (count : Nat) : Significand :=
  if b.mantissa = 0 then ⟨List.replicate count '0', 0⟩
  else
    let exponent := leadingExponent b.numerator b.denominator
    let digits := Nat.toDigits 10 (b.roundedUnits (exponent + 1 - count))
    if digits.length ≤ count then ⟨digits, exponent⟩ else ⟨digits.take count, exponent + 1⟩

/-! ## Few digits -/

/-- The float of this size is the nearest one to `n` units of ten to the power
`g`; an even mantissa wins halfway. -/
def Binary.readsBack (b : Binary) (g : Int) (n : Nat) : Bool :=
  let scale := Nat.pow 2 b.exponent.toNat * Nat.pow 10 (-g).toNat
  let candidate := 4 * n * Nat.pow 10 g.toNat * Nat.pow 2 (-b.exponent).toNat
  let low := (4 * b.mantissa - if b.isNarrowBelow then 1 else 2) * scale
  let high := (4 * b.mantissa + 2) * scale
  if b.mantissa % 2 = 0 then low ≤ candidate && candidate ≤ high
  else low < candidate && candidate < high

/-- The number of units of ten to the power `g` that reads back: the nearest one,
or else one beside the size. -/
def Binary.shortestOn? (b : Binary) (g : Int) : Option Nat :=
  let below := unitsAbove b.numerator g / unitsBelow b.denominator g
  [b.roundedUnits g, below, below + 1].find? (b.readsBack g)

/-- Seventeen digits always read back. -/
def maxDigits : Nat := 17

/-- As few digits as read back as the same float. -/
def Binary.shortest (b : Binary) : Significand :=
  if b.mantissa = 0 then ⟨['0'], 0⟩
  else
    let exponent := leadingExponent b.numerator b.denominator
    let found := (List.range maxDigits).findSome? fun (i : Nat) =>
      let g := exponent - i
      (b.shortestOn? g).map fun n => (Nat.toDigits 10 n, g)
    match found with
    | some (digits, g) => (Significand.mk digits (g + digits.length - 1)).trimmed
    | none => b.significant maxDigits

/-- What the search for few digits finds reads back. -/
theorem Binary.readsBack_of_shortestOn? {b : Binary} {g : Int} {n : Nat}
    (h : b.shortestOn? g = some n) : b.readsBack g n = true :=
  List.find?_some h

end SingleFile.Decimal
