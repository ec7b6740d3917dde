import SingleFile.Text.Blank
import SingleFile.Text.Numeral

/-!
# Rotation of log files

A log file is rotated when it reaches a size.  The size is written as a positive
whole number and the word `MB`; anything else means ten of them.

Main results:

- `rotationBytes_pos`: the size is never zero.
-/

namespace SingleFile.Log

/-- The bytes of one megabyte. -/
def bytesPerMegabyte : Nat :=
  1024 * 1024

/-- The size when none is given. -/
def defaultRotationBytes : Nat :=
  10 * bytesPerMegabyte

/-- The number of megabytes that a text asks for. -/
def megabytes? (s : List Char) : Option Nat :=
  match Text.words s with
  | number :: unit :: _ =>
      if (String.ofList unit).toUpper = "MB" then
        match Text.integer? number with
        | some (Int.ofNat (n + 1)) => some (n + 1)
        | _ => none
      else none
  | _ => none

/-- The size that a text asks for. -/
def rotationBytes (s : String) : Nat :=
  match megabytes? s.toList with
  | some n => n * bytesPerMegabyte
  | none => defaultRotationBytes

/-- The size is never zero. -/
theorem rotationBytes_pos (s : String) : 0 < rotationBytes s := by
  unfold rotationBytes
  split
  · rename_i n hn
    have hpos : 0 < n := by
      unfold megabytes? at hn
      repeat' split at hn
      all_goals simp_all
      omega
    exact Nat.mul_pos hpos (by decide)
  · decide

end SingleFile.Log
