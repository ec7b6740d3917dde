import SingleFile.Proofs.Source.Steps

/-!
# Well-nested brackets

A word of brackets is well nested when it is built up from nothing by putting
words behind each other and between the two halves of a pair.  The source check
knows nothing of such a derivation: it keeps the brackets that are open.  This
file shows that a word is well nested exactly when nothing is open behind it, and
tells the brackets that any other word leaves open.

Main results:

- Theorem `WellNested.closes_append`: a well-nested word leaves the open brackets
  as they are.
- Theorem `wellNested_iff_closes`: the well-nested words are those that close
  everything they open.
- Theorem `leftOpen_iff_leaves`: what a word leaves open, told by its well-nested
  parts and by reading it.
-/

namespace SingleFile.Script.Source

/-! ## The words -/

/-- Well-nested words of brackets. -/
inductive WellNested : List Char → Prop where
  /-- The empty word. -/
  | nil : WellNested []
  /-- One word behind another. -/
  | append {u v : List Char} (left : WellNested u) (right : WellNested v) : WellNested (u ++ v)
  /-- A word between the two halves of a pair. -/
  | enclosed (b : Bracket) {w : List Char} (inner : WellNested w) :
      WellNested (b.opener :: (w ++ [b.closer]))

/-- Read with the first brackets open, innermost first, the word leaves the other
brackets open. -/
inductive Leaves : List Bracket → List Char → List Bracket → Prop where
  /-- The empty word leaves everything as it is. -/
  | nil {opened : List Bracket} : Leaves opened [] opened
  /-- A bracket is opened. -/
  | opener {b : Bracket} {opened now : List Bracket} {w : List Char}
      (rest : Leaves (b :: opened) w now) : Leaves opened (b.opener :: w) now
  /-- The innermost open bracket is closed. -/
  | closer {b : Bracket} {opened now : List Bracket} {w : List Char}
      (rest : Leaves opened w now) : Leaves (b :: opened) (b.closer :: w) now

/-- The word closes the open brackets, innermost first, and whatever it opens
itself. -/
inductive Closes : List Bracket → List Char → Prop where
  /-- The empty word closes nothing. -/
  | nil : Closes [] []
  /-- A bracket that the word opens is closed later. -/
  | opener {b : Bracket} {opened : List Bracket} {w : List Char} (rest : Closes (b :: opened) w) :
      Closes opened (b.opener :: w)
  /-- The innermost open bracket is closed. -/
  | closer {b : Bracket} {opened : List Bracket} {w : List Char} (rest : Closes opened w) :
      Closes (b :: opened) (b.closer :: w)

/-! ## Words that open and close brackets -/

theorem Bracket.opener_injective {b b' : Bracket} (h : b.opener = b'.opener) : b = b' := by
  have hsome : some b = some b' := by
    rw [← ofOpener?_opener b, h, ofOpener?_opener]
  exact Option.some.inj hsome

theorem Bracket.closer_injective {b b' : Bracket} (h : b.closer = b'.closer) : b = b' := by
  have hsome : some b = some b' := by
    rw [← ofCloser?_closer b, h, ofCloser?_closer]
  exact Option.some.inj hsome

theorem Bracket.opener_ne_closer (b b' : Bracket) : b.opener ≠ b'.closer := by
  cases b <;> cases b' <;> decide

theorem leaves_nil_iff {opened now : List Bracket} : Leaves opened [] now ↔ opened = now := by
  constructor
  · intro h
    cases h
    rfl
  · rintro rfl
    exact .nil

/-- An opening bracket is added to the open ones. -/
theorem leaves_opener_iff {b : Bracket} {opened now : List Bracket} {w : List Char} :
    Leaves opened (b.opener :: w) now ↔ Leaves (b :: opened) w now := by
  refine ⟨fun h => ?_, .opener⟩
  generalize hword : b.opener :: w = word at h
  cases h with
  | nil => cases hword
  | @opener b' _ _ w' rest =>
      obtain ⟨hhead, rfl⟩ := List.cons.inj hword
      rw [Bracket.opener_injective hhead]
      exact rest
  | @closer b' _ _ w' rest => exact absurd (List.cons.inj hword).1 (b.opener_ne_closer b')

/-- A closing bracket takes the innermost open one away. -/
theorem leaves_closer_iff {b : Bracket} {opened now : List Bracket} {w : List Char} :
    Leaves opened (b.closer :: w) now ↔ ∃ outer, opened = b :: outer ∧ Leaves outer w now := by
  constructor
  · intro h
    generalize hword : b.closer :: w = word at h
    cases h with
    | nil => cases hword
    | @opener b' _ _ w' rest =>
        exact absurd (List.cons.inj hword).1.symm (b'.opener_ne_closer b)
    | @closer b' outer _ w' rest =>
        obtain ⟨hhead, rfl⟩ := List.cons.inj hword
        exact ⟨outer, by rw [Bracket.closer_injective hhead], rest⟩
  · rintro ⟨outer, rfl, h⟩
    exact .closer h

/-- Two texts leave what the second leaves of what the first has left. -/
theorem leaves_append_iff {opened later : List Bracket} {u v : List Char} :
    Leaves opened (u ++ v) later ↔ ∃ now, Leaves opened u now ∧ Leaves now v later := by
  constructor
  · intro h
    induction u generalizing opened with
    | nil => exact ⟨opened, .nil, h⟩
    | cons c u ih =>
        generalize hword : c :: u ++ v = word at h
        cases h with
        | nil => cases hword
        | opener rest =>
            obtain ⟨rfl, rfl⟩ := List.cons.inj hword
            obtain ⟨now, hu, hv⟩ := ih rest
            exact ⟨now, .opener hu, hv⟩
        | closer rest =>
            obtain ⟨rfl, rfl⟩ := List.cons.inj hword
            obtain ⟨now, hu, hv⟩ := ih rest
            exact ⟨now, .closer hu, hv⟩
  · rintro ⟨now, hu, hv⟩
    induction hu with
    | nil => exact hv
    | opener _ ih => exact .opener (ih hv)
    | closer _ ih => exact .closer (ih hv)

/-- What a word leaves open is determined. -/
theorem Leaves.unique {opened now now' : List Bracket} {w : List Char}
    (h : Leaves opened w now) (h' : Leaves opened w now') : now = now' := by
  induction h with
  | nil => exact leaves_nil_iff.mp h'
  | opener _ ih => exact ih (leaves_opener_iff.mp h')
  | closer _ ih =>
      obtain ⟨outer, houter, hrest⟩ := leaves_closer_iff.mp h'
      obtain ⟨_, rfl⟩ := List.cons.inj houter
      exact ih hrest

/-- A word closes the open brackets when it leaves nothing open. -/
theorem closes_iff_leaves {opened : List Bracket} {w : List Char} :
    Closes opened w ↔ Leaves opened w [] := by
  constructor
  · intro h
    induction h with
    | nil => exact .nil
    | opener _ ih => exact .opener ih
    | closer _ ih => exact .closer ih
  · intro h
    generalize hnow : [] = now at h
    induction h with
    | nil =>
        rw [← hnow]
        exact .nil
    | opener _ ih => exact .opener (ih hnow)
    | closer _ ih => exact .closer (ih hnow)

theorem closes_nil_iff {opened : List Bracket} : Closes opened [] ↔ opened = [] := by
  rw [closes_iff_leaves, leaves_nil_iff]

/-- A text closes behind an opening bracket what it closes with that bracket open. -/
theorem closes_opener_iff {b : Bracket} {opened : List Bracket} {w : List Char} :
    Closes opened (b.opener :: w) ↔ Closes (b :: opened) w := by
  simp only [closes_iff_leaves, leaves_opener_iff]

/-- A closing bracket closes the innermost open one. -/
theorem closes_closer_iff {b : Bracket} {opened : List Bracket} {w : List Char} :
    Closes opened (b.closer :: w) ↔ ∃ outer, opened = b :: outer ∧ Closes outer w := by
  simp only [closes_iff_leaves, leaves_closer_iff]

/-! ## Nesting and closing -/

/-- A well-nested word leaves the open brackets as they are. -/
theorem WellNested.closes_append {u w : List Char} {opened : List Bracket} (hu : WellNested u)
    (hw : Closes opened w) : Closes opened (u ++ w) := by
  induction hu generalizing opened w with
  | nil => exact hw
  | append _ _ ihleft ihright =>
      rw [List.append_assoc]
      exact ihleft (ihright hw)
  | enclosed b _ ih =>
      rw [List.cons_append, List.append_assoc]
      exact .opener (ih (.closer hw))

/-- The word is made of well-nested words, one before each of the halves that
close the open brackets and one behind them. -/
def NestedBetween : List Bracket → List Char → Prop
  | [], w => WellNested w
  | b :: opened, w => ∃ u v, w = u ++ b.closer :: v ∧ WellNested u ∧ NestedBetween opened v

/-- Well-nested text may stand before text that is nested between closing brackets. -/
theorem WellNested.nestedBetween_append {u w : List Char} {opened : List Bracket}
    (hu : WellNested u) (hw : NestedBetween opened w) : NestedBetween opened (u ++ w) := by
  cases opened with
  | nil => exact .append hu hw
  | cons b opened =>
      obtain ⟨x, y, rfl, hx, hy⟩ := hw
      exact ⟨u ++ x, y, by simp, .append hu hx, hy⟩

/-- A word that closes the open brackets is nested between the halves that close them. -/
theorem Closes.nestedBetween {opened : List Bracket} {w : List Char} (h : Closes opened w) :
    NestedBetween opened w := by
  induction h with
  | nil => exact .nil
  | @opener b _ _ _ ih =>
      obtain ⟨u, v, rfl, hu, hv⟩ := ih
      have henclosed : WellNested (b.opener :: (u ++ [b.closer])) := .enclosed b hu
      simpa using henclosed.nestedBetween_append hv
  | @closer b _ w _ ih => exact ⟨[], w, rfl, .nil, ih⟩

/-- The well-nested words are those that close everything they open. -/
theorem wellNested_iff_closes {w : List Char} : WellNested w ↔ Closes [] w := by
  constructor
  · intro h
    simpa using h.closes_append .nil
  · exact Closes.nestedBetween

/-! ## What a word leaves open -/

/-- The word is made of well-nested words, one behind each opening half that has
no partner and one before them all; these halves are the given ones, the last one
first. -/
def LeftOpen : List Bracket → List Char → Prop
  | [], w => WellNested w
  | b :: outer, w => ∃ u v, w = u ++ b.opener :: v ∧ LeftOpen outer u ∧ WellNested v

/-- A word that closes the innermost of the open brackets leaves the others
open. -/
theorem Closes.leaves {inner : List Bracket} {w : List Char} (h : Closes inner w)
    (outer : List Bracket) : Leaves (inner ++ outer) w outer := by
  induction h with
  | nil => exact .nil
  | opener _ ih => exact .opener ih
  | closer _ ih => exact .closer ih

/-- Well-nested text leaves the open brackets as they are. -/
theorem WellNested.leaves {w : List Char} (h : WellNested w) (opened : List Bracket) :
    Leaves opened w opened :=
  (wellNested_iff_closes.mp h).leaves opened

/-- Well-nested text adds no open bracket. -/
theorem LeftOpen.append_wellNested {opened : List Bracket} {u v : List Char}
    (hu : LeftOpen opened u) (hv : WellNested v) : LeftOpen opened (u ++ v) := by
  cases opened with
  | nil => exact .append hu hv
  | cons b outer =>
      obtain ⟨x, y, rfl, hx, hy⟩ := hu
      exact ⟨x, y ++ v, by simp, hx, .append hy hv⟩

/-- A word that is read behind another one goes on with the brackets that are
open there. -/
theorem LeftOpen.append_leaves {opened now : List Bracket} {u w : List Char}
    (hu : LeftOpen opened u) (hw : Leaves opened w now) : LeftOpen now (u ++ w) := by
  induction hw generalizing u with
  | nil => simpa using hu
  | @opener b opened now w _ ih =>
      have hopened : LeftOpen (b :: opened) (u ++ [b.opener]) := ⟨u, [], rfl, hu, .nil⟩
      simpa using ih hopened
  | @closer b opened now w _ ih =>
      obtain ⟨x, y, rfl, hx, hy⟩ := hu
      have hclosed := hx.append_wellNested (.enclosed b hy)
      simpa using ih hclosed

/-- What a word leaves open, told by its well-nested parts and by reading it. -/
theorem leftOpen_iff_leaves {now : List Bracket} {w : List Char} :
    LeftOpen now w ↔ Leaves [] w now := by
  constructor
  · intro h
    induction now generalizing w with
    | nil => exact WellNested.leaves h []
    | cons b outer ih =>
        obtain ⟨u, v, rfl, hu, hv⟩ := h
        exact leaves_append_iff.mpr ⟨outer, ih hu, .opener (hv.leaves (b :: outer))⟩
  · intro h
    have hnil : LeftOpen [] [] := WellNested.nil
    simpa using hnil.append_leaves h

/-- A bracket that a word leaves open was opened somewhere in it. -/
theorem LeftOpen.exists_eq_append {inner outer : List Bracket} {b : Bracket} {w : List Char}
    (h : LeftOpen (inner ++ b :: outer) w) :
    ∃ u v, w = u ++ b.opener :: v ∧ LeftOpen outer u ∧ LeftOpen inner v := by
  induction inner generalizing w with
  | nil => exact h
  | cons c inner ih =>
      obtain ⟨x, y, rfl, hx, hy⟩ := h
      obtain ⟨u, v, rfl, hu, hv⟩ := ih hx
      exact ⟨u, v ++ c.opener :: y, by simp, hu, v, y, rfl, hv, hy⟩

end SingleFile.Script.Source
