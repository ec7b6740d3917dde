/-!
# Strict UTF-8

Decodes octets, or names the first fault and the position of the sequence that
holds it.  A lead octet fixes how many octets follow it and the bounds of the
first of these, so that overlong forms, surrogates and numbers above U+10FFFF
are refused at their second octet.
-/

namespace SingleFile.Text.Utf8

/-- What is wrong with a sequence of octets. -/
inductive Fault where
  /-- No character begins with this octet. -/
  | invalidStart
  /-- An octet does not continue the sequence before it. -/
  | invalidContinuation
  /-- The octets end inside a sequence. -/
  | unexpectedEnd
deriving DecidableEq, Repr

/-- A fault and the position of the first octet of its sequence. -/
structure DecodeError where
  fault : Fault
  position : Nat
deriving DecidableEq, Repr

/-- The words for a fault. -/
def Fault.reason : Fault → String
  | .invalidStart => "invalid start byte"
  | .invalidContinuation => "invalid continuation byte"
  | .unexpectedEnd => "unexpected end of data"

/-- A sequence in progress: where it began, how many octets it still needs, the
bounds of the next one, and the bits read so far. -/
structure Pending where
  start : Nat
  missing : Nat
  low : Nat
  high : Nat
  bits : Nat

/-- What a first octet begins: a character of its own, a longer sequence, or
nothing. -/
inductive Lead where
  | single
  | sequence (missing low high bits : Nat)
  | invalid

/-- The role of an octet at the start of a sequence. -/
def lead (b : Nat) : Lead :=
  if b < 0x80 then .single
  else if b < 0xC2 then .invalid
  else if b < 0xE0 then .sequence 1 0x80 0xBF (b - 0xC0)
  else if b = 0xE0 then .sequence 2 0xA0 0xBF 0
  else if b = 0xED then .sequence 2 0x80 0x9F 0xD
  else if b < 0xF0 then .sequence 2 0x80 0xBF (b - 0xE0)
  else if b = 0xF0 then .sequence 3 0x90 0xBF 0
  else if b < 0xF4 then .sequence 3 0x80 0xBF (b - 0xF0)
  else if b = 0xF4 then .sequence 3 0x80 0x8F 4
  else .invalid

/-- Decodes from a position on, inside a sequence or between two characters. -/
def decodeFrom (position : Nat) : Option Pending → List UInt8 → Except DecodeError (List Char)
  | none, [] => .ok []
  | some p, [] => .error ⟨.unexpectedEnd, p.start⟩
  | none, b :: bs =>
      match lead b.toNat with
      | .single => (Char.ofNat b.toNat :: ·) <$> decodeFrom (position + 1) none bs
      | .sequence missing low high bits =>
          decodeFrom (position + 1) (some ⟨position, missing, low, high, bits⟩) bs
      | .invalid => .error ⟨.invalidStart, position⟩
  | some p, b :: bs =>
      if p.low ≤ b.toNat ∧ b.toNat ≤ p.high then
        let bits := 64 * p.bits + b.toNat % 64
        if p.missing ≤ 1 then (Char.ofNat bits :: ·) <$> decodeFrom (position + 1) none bs
        else
          decodeFrom (position + 1) (some ⟨p.start, p.missing - 1, 0x80, 0xBF, bits⟩) bs
      else .error ⟨.invalidContinuation, p.start⟩

/-- The characters that the octets write. -/
def decode (bs : List UInt8) : Except DecodeError (List Char) :=
  decodeFrom 0 none bs

end SingleFile.Text.Utf8
