import SingleFile.Log.Conversion
import SingleFile.Table

/-!
# Event texts with arguments

Fills the places of a pattern with the arguments of an event, one after the
other.  A single argument that is an object with fields gives its fields by
name; a place may then also take the whole object, and fields without a place
do no harm.  Otherwise every argument has to have its place.  Without arguments
the event is taken as it is, and is no pattern.

Main results:

- `eventText_nil`: an event without arguments is taken as it is.
- `fill_chars`: text without a place needs no argument.
-/

namespace SingleFile.Log

/-! ## Arguments -/

/-- The arguments that are left, and the names that arguments have. -/
structure Supply where
  named : Option (Table String Value) := none
  values : List Value
deriving Inhabited

/-- The arguments of an event. -/
def Supply.ofArguments : List Value → Supply
  | [.object (f :: fs)] => { named := some (f :: fs), values := [.object (f :: fs)] }
  | values => { values }

/-- No argument is left that has to have a place. -/
def Supply.isSpent (s : Supply) : Bool :=
  s.named.isSome || s.values.isEmpty

/-- The next argument. -/
def Supply.next (s : Supply) : Except PatternError (Value × Supply) :=
  match s.values with
  | v :: values => .ok (v, { s with values })
  | [] => .error .tooFew

/-- The arguments for a place: a place that names its argument leaves no other
one to itself and to the places after it. -/
def Supply.select (s : Supply) (key : PlaceKey) : Except PatternError Supply :=
  match key, s.named with
  | .none, _ => .ok s
  | _, none => .error .unnamed
  | .unclosed, some _ => .error .unclosedName
  | .named name, some fields =>
      match fields.get? name with
      | some v => .ok { s with values := [v] }
      | none => .error (.missingName name)

/-! ## Measures -/

/-- The next argument as a measure. -/
def Supply.nextMeasure (s : Supply) : Except PatternError (Int × Supply) :=
  match s.next with
  | .error e => .error e
  | .ok (.int n, s) => .ok (n, s)
  | .ok (.bool b, s) => .ok (b.toNat, s)
  | .ok _ => .error .notMeasure

/-- The width of a place, and its flags: a negative width aligns to the left. -/
def Supply.width (s : Supply) (flags : PlaceFlags) :
    Measure → Except PatternError (Nat × PlaceFlags × Supply)
  | .none => .ok (0, flags, s)
  | .number n => if Nat.pow 2 63 ≤ n then .error .wideText else .ok (n, flags, s)
  | .argument =>
      match s.nextMeasure with
      | .error e => .error e
      | .ok (n, s) =>
          if n < -Int.pow 2 63 ∨ Int.pow 2 63 ≤ n then .error .wideArgument
          else .ok (n.natAbs, { flags with alignsLeft := flags.alignsLeft || n < 0 }, s)

/-- The precision of a place; a negative one is zero. -/
def Supply.precision (s : Supply) : Measure → Except PatternError (Option Nat × Supply)
  | .none => .ok (none, s)
  | .number n => if Nat.pow 2 31 ≤ n then .error .preciseText else .ok (some n, s)
  | .argument =>
      match s.nextMeasure with
      | .error e => .error e
      | .ok (n, s) =>
          if n < -Int.pow 2 31 ∨ Int.pow 2 31 ≤ n then .error .preciseArgument else .ok (some n.toNat, s)

/-! ## Filling places -/

/-- The text of an argument in a place of the given measures. -/
def setIn (flags : PlaceFlags) (width : Nat) (precision : Option Nat) (letter : Char)
    (position : Nat) (v : Value) : Except PatternError (List Char) :=
  match convert letter position flags precision v with
  | .error e => .error e
  | .ok c => if maxLength < width then .error .tooLong else .ok (c.set flags width)

/-- The text of a place, and the arguments that are left. -/
def Supply.fillPlace (s : Supply) (p : Place) : Except PatternError (List Char × Supply) :=
  (s.select p.key).bind fun s =>
    (s.width p.flags p.width).bind fun (width, flags, s) =>
      (s.precision p.precision).bind fun (precision, s) =>
        match p.letter? with
        | none => .error .incomplete
        | some (letter, position) =>
            s.next.bind fun (v, s) =>
              (setIn flags width precision letter position v).map fun t => (t, s)

/-- The text of the pieces of a pattern. -/
def Supply.fill (s : Supply) : List Piece → Except PatternError (List Char)
  | [] => if s.isSpent then .ok [] else .error .tooMany
  | .char c :: ps => (s.fill ps).map (c :: ·)
  | .place p :: ps =>
      match s.fillPlace p with
      | .error e => .error e
      | .ok (t, s) => (s.fill ps).map (t ++ ·)

/-- The text of an event with its arguments. -/
def eventText (event : String) : List Value → Except PatternError String
  | [] => .ok event
  | args => ((Supply.ofArguments args).fill (pieces event.toList)).map String.ofList

/-- An event without arguments is taken as it is. -/
@[simp]
theorem eventText_nil (event : String) : eventText event [] = .ok event :=
  rfl

/-- Text without a place needs no argument. -/
theorem Supply.fill_chars {s : Supply} (h : s.isSpent = true) (cs : List Char) :
    s.fill (cs.map .char) = .ok cs := by
  induction cs with
  | nil => simp [fill, h]
  | cons c cs ih => simp [fill, ih, Except.map]

end SingleFile.Log
