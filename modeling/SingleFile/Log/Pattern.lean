import SingleFile.Text.Numeral

/-!
# Patterns of events

An event may be a pattern: text with places for arguments.  A place starts with
a percent sign and says, in this order, which argument it takes by name, how the
argument is set, how wide it is, how precise it is, and by which letter it is
converted; all but the letter may be left out.  Two percent signs stand for one.

Reading a pattern never fails.  What is wrong with a place is found when it is
filled, so that the first place at fault decides.

Main results:

- `pieces_literal`: text without a percent sign is read as it stands.
-/

namespace SingleFile.Log

/-! ## Places -/

/-- The name of the argument that a place takes. -/
inductive PlaceKey where
  | none
  | named (name : String)
  /-- The name is not closed. -/
  | unclosed
deriving DecidableEq, Repr

/-- How an argument is set within the width of its place. -/
structure PlaceFlags where
  alignsLeft : Bool := false
  showsPlus : Bool := false
  showsBlank : Bool := false
  isAlternate : Bool := false
  fillsZeros : Bool := false
deriving DecidableEq, Repr

/-- A width or a precision. -/
inductive Measure where
  | none
  | number (n : Nat)
  /-- An argument of its own gives the number. -/
  | argument
deriving DecidableEq, Repr

/-- A place for an argument. -/
structure Place where
  key : PlaceKey
  flags : PlaceFlags
  width : Measure
  precision : Measure
  /-- The letter, and where it stands; none when the pattern ends before it. -/
  letter? : Option (Char × Nat)
deriving DecidableEq, Repr

/-- A piece of a pattern. -/
inductive Piece where
  | char (c : Char)
  | place (p : Place)
deriving DecidableEq, Repr

/-! ## Reading the parts of a place -/

/-- What is read of a pattern, and the rest of it. -/
abbrev PatternStep (α : Type) := α × List Char

/-- The name up to its closing bracket, when `depth` brackets are open within
it. -/
def keyName? : (depth : Nat) → List Char → Option (PatternStep (List Char))
  | _, [] => none
  | 0, ')' :: s => some ([], s)
  | depth + 1, ')' :: s => (keyName? depth s).map fun r => (')' :: r.1, r.2)
  | depth, c :: s =>
      (keyName? (if c = '(' then depth + 1 else depth) s).map fun r => (c :: r.1, r.2)

/-- The name in brackets that a place may begin with. -/
def readKey : List Char → PatternStep PlaceKey
  | '(' :: s =>
      match keyName? 0 s with
      | some (name, s) => (.named (String.ofList name), s)
      | none => (.unclosed, [])
  | s => (.none, s)

/-- The characters that set an argument within its width. -/
def isFlag (c : Char) : Bool :=
  ['-', '+', ' ', '#', '0'].contains c

/-- The setting that a row of flags asks for. -/
def PlaceFlags.ofChars (cs : List Char) : PlaceFlags where
  alignsLeft := cs.contains '-'
  showsPlus := cs.contains '+'
  showsBlank := cs.contains ' '
  isAlternate := cs.contains '#'
  fillsZeros := cs.contains '0'

/-- The flags of a place. -/
def readFlags (s : List Char) : PatternStep PlaceFlags :=
  (PlaceFlags.ofChars (s.takeWhile isFlag), s.dropWhile isFlag)

/-- A number in ASCII digits, or a star for an argument. -/
def readMeasure : List Char → PatternStep Measure
  | '*' :: s => (.argument, s)
  | s =>
      match s.takeWhile Char.isDigit with
      | [] => (.none, s)
      | ds => (.number (Text.ofDigits (ds.map fun d => d.toNat - 48)), s.dropWhile Char.isDigit)

/-- A point and a measure; a point alone asks for zero. -/
def readPrecision : List Char → PatternStep Measure
  | '.' :: s =>
      match readMeasure s with
      | (.none, s) => (.number 0, s)
      | r => r
  | s => (.none, s)

/-- One letter for the size of a number is without effect. -/
def skipSize : List Char → List Char
  | c :: s => if ['h', 'l', 'L'].contains c then s else c :: s
  | [] => []

/-- The letter of a place that ends `length` characters before the end of the
pattern. -/
def readLetter (length : Nat) : List Char → PatternStep (Option (Char × Nat))
  | c :: s => (some (c, length - s.length - 1), s)
  | [] => (none, [])

/-- A place of a pattern of the given length, after its percent sign. -/
def readPlace (length : Nat) (s : List Char) : PatternStep Place :=
  let (key, s) := readKey s
  let (flags, s) := readFlags s
  let (width, s) := readMeasure s
  let (precision, s) := readPrecision s
  let (letter?, s) := readLetter length (skipSize s)
  (⟨key, flags, width, precision, letter?⟩, s)

/-! ## What is left is no longer -/

theorem length_keyName? {depth : Nat} {s : List Char} {r : PatternStep (List Char)}
    (h : keyName? depth s = some r) : r.2.length ≤ s.length := by
  induction s generalizing depth r with
  | nil => simp [keyName?] at h
  | cons c s ih =>
      rw [List.length_cons]
      unfold keyName? at h
      split at h
      · cases h
      · rename_i hs
        cases h
        rw [(List.cons.inj hs).2]
        exact Nat.le_succ _
      · rename_i hs
        obtain ⟨r', hr', rfl⟩ := Option.map_eq_some_iff.mp h
        rw [← (List.cons.inj hs).2] at hr'
        have hlen := ih hr'
        exact Nat.le_succ_of_le hlen
      · rename_i hs
        obtain ⟨r', hr', rfl⟩ := Option.map_eq_some_iff.mp h
        rw [← (List.cons.inj hs).2] at hr'
        have hlen := ih hr'
        exact Nat.le_succ_of_le hlen

theorem length_readKey (s : List Char) : (readKey s).2.length ≤ s.length := by
  unfold readKey
  split
  · split
    · rename_i h
      exact Nat.le_succ_of_le (length_keyName? h)
    · simp
  · exact Nat.le_refl _

theorem length_dropWhile_le (p : Char → Bool) (s : List Char) :
    (s.dropWhile p).length ≤ s.length :=
  (List.dropWhile_sublist p).length_le

theorem length_readMeasure (s : List Char) : (readMeasure s).2.length ≤ s.length := by
  unfold readMeasure
  split
  · simp
  · split
    · exact Nat.le_refl _
    · exact length_dropWhile_le _ _

theorem length_readPrecision (s : List Char) : (readPrecision s).2.length ≤ s.length := by
  unfold readPrecision
  split
  · rename_i s
    have h := length_readMeasure s
    split
    · rename_i hr
      rw [hr] at h
      exact Nat.le_succ_of_le h
    · exact Nat.le_succ_of_le h
  · exact Nat.le_refl _

theorem length_skipSize (s : List Char) : (skipSize s).length ≤ s.length := by
  unfold skipSize
  split
  · split
    · exact Nat.le_succ _
    · exact Nat.le_refl _
  · exact Nat.le_refl _

theorem length_readLetter (length : Nat) (s : List Char) :
    (readLetter length s).2.length ≤ s.length := by
  cases s with
  | nil => exact Nat.le_refl _
  | cons c s => exact Nat.le_succ _

/-- A place leaves no more than it was given. -/
theorem length_readPlace (length : Nat) (s : List Char) :
    (readPlace length s).2.length ≤ s.length :=
  calc
    (readPlace length s).2.length ≤ _ := length_readLetter _ _
    _ ≤ _ := length_skipSize _
    _ ≤ _ := length_readPrecision _
    _ ≤ _ := length_readMeasure _
    _ ≤ _ := length_dropWhile_le _ _
    _ ≤ _ := length_readKey s

/-! ## Reading a pattern -/

/-- The pieces of the end of a pattern of the given length. -/
def piecesFrom (length : Nat) : List Char → List Piece
  | [] => []
  | '%' :: '%' :: s => .char '%' :: piecesFrom length s
  | '%' :: s =>
      .place (readPlace length s).1 :: piecesFrom length (readPlace length s).2
  | c :: s => .char c :: piecesFrom length s
termination_by s => s.length
decreasing_by
  all_goals simp only [List.length_cons]
  · omega
  · have := length_readPlace length s
    omega
  · omega

/-- The pieces of a pattern. -/
def pieces (pattern : List Char) : List Piece :=
  piecesFrom pattern.length pattern

/-- Text without a percent sign is read as it stands. -/
theorem pieces_literal {pattern : List Char} (h : '%' ∉ pattern) :
    pieces pattern = pattern.map .char := by
  suffices hfrom : ∀ length, piecesFrom length pattern = pattern.map .char from hfrom _
  intro length
  induction pattern with
  | nil => simp [piecesFrom]
  | cons c s ih =>
      have hc : c ≠ '%' := fun e => h (by simp [e])
      have hs : '%' ∉ s := fun m => h (by simp [m])
      rw [piecesFrom, ih hs, List.map_cons]
      · exact fun s e _ => hc e
      · exact hc

end SingleFile.Log
