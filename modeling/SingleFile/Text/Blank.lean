/-!
# Blank characters, trimming and words

A character is blank when it separates words or lines.  This file fixes that
class and the four ways in which the rest of the library uses it: skipping
blanks, trimming a text, cutting a text at a separator, and reading the words
of a text.

Main results:

- `trim_eq_nil_iff`: exactly the blank texts trim to nothing.
- `trim_trim`: a trimmed text is its own trimmed form.
- `mem_pieces`: no piece of a cut text holds the separator.
- `cutAt_eq_some_iff`: a cut at a character takes its first occurrence.
-/

namespace SingleFile.Text

/-! ## The class -/

/-- Tabs, line breaks, the four ASCII information separators, and every space
or line separator beyond ASCII. -/
def isBlank (c : Char) : Bool :=
  let n := c.toNat
  (9 ≤ n && n ≤ 13) || (28 ≤ n && n ≤ 32) || n == 0x85 || n == 0xA0 ||
    n == 0x1680 || (0x2000 ≤ n && n ≤ 0x200A) || n == 0x2028 || n == 0x2029 ||
    n == 0x202F || n == 0x205F || n == 0x3000

/-- The text after its leading blanks. -/
def dropBlank (s : List Char) : List Char :=
  s.dropWhile isBlank

/-- The text without the blanks at either end. -/
def trim (s : List Char) : List Char :=
  (dropBlank (dropBlank s).reverse).reverse

/-- A text of blanks only; the empty text is one. -/
def isBlankText (s : List Char) : Bool :=
  s.all isBlank

/-- `trim` on strings. -/
def trimmed (s : String) : String :=
  String.ofList (trim s.toList)

/-- `isBlankText` on strings. -/
def isBlankString (s : String) : Bool :=
  isBlankText s.toList

@[simp]
theorem dropBlank_nil : dropBlank [] = [] :=
  rfl

@[simp]
theorem toList_trimmed (s : String) : (trimmed s).toList = trim s.toList := by
  simp [trimmed]

theorem dropBlank_of_head {c : Char} {s : List Char} (h : isBlank c = false) :
    dropBlank (c :: s) = c :: s := by
  simp [dropBlank, h]

/-- Exactly the blank texts drop to nothing. -/
theorem dropBlank_eq_nil_iff (s : List Char) :
    dropBlank s = [] ↔ isBlankText s = true := by
  induction s with
  | nil => simp [isBlankText]
  | cons c s ih => by_cases h : isBlank c <;> simp_all [dropBlank, isBlankText]

/-- Dropping blanks twice is dropping them once. -/
@[simp]
theorem dropBlank_dropBlank (s : List Char) : dropBlank (dropBlank s) = dropBlank s := by
  induction s with
  | nil => rfl
  | cons c s ih => by_cases h : isBlank c <;> simp_all [dropBlank]

/-- What is left begins with no blank. -/
theorem head_dropBlank {s t : List Char} {c : Char} (h : dropBlank s = c :: t) :
    isBlank c = false := by
  induction s with
  | nil => simp at h
  | cons d s ih => by_cases hd : isBlank d <;> simp_all [dropBlank]

/-- Exactly the blank texts trim to nothing. -/
theorem trim_eq_nil_iff (s : List Char) : trim s = [] ↔ isBlankText s = true := by
  rw [trim, List.reverse_eq_nil_iff, dropBlank_eq_nil_iff, ← dropBlank_eq_nil_iff s]
  constructor
  · intro h
    cases hd : dropBlank s with
    | nil => rfl
    | cons c t => simp [hd, isBlankText, head_dropBlank hd] at h
  · intro h
    simp [h, isBlankText]

/-- A trimmed text is its own trimmed form. -/
@[simp]
theorem trim_trim (s : List Char) : trim (trim s) = trim s := by
  have hfront : dropBlank (trim s) = trim s := by
    cases hr : trim s with
    | nil => rfl
    | cons c r =>
        have hpre : trim s <+: dropBlank s := by
          rw [trim, ← List.reverse_suffix, List.reverse_reverse]
          exact List.dropWhile_suffix isBlank
        obtain ⟨rest, hrest⟩ := hpre
        rw [hr, List.cons_append] at hrest
        exact dropBlank_of_head (head_dropBlank hrest.symm)
  rw [trim, hfront]
  simp [trim]

/-! ## Cutting at a separator -/

/-- The pieces of a text between the occurrences of a separator, in order; a
text without the separator is one piece. -/
def pieces (separator : Char) : List Char → List (List Char)
  | [] => [[]]
  | c :: s =>
      match pieces separator s with
      | [] => [[c]]
      | p :: ps => if c == separator then [] :: p :: ps else (c :: p) :: ps

theorem pieces_ne_nil (separator : Char) (s : List Char) : pieces separator s ≠ [] := by
  cases s with
  | nil => simp [pieces]
  | cons c s =>
      simp only [pieces]
      split
      · simp
      · split <;> simp

/-- No piece holds the separator. -/
theorem mem_pieces {separator : Char} {s p : List Char} (h : p ∈ pieces separator s) :
    separator ∉ p := by
  induction s generalizing p with
  | nil => simp_all [pieces]
  | cons c s ih =>
      simp only [pieces] at h
      split at h
      · rename_i hs
        exact absurd hs (pieces_ne_nil separator s)
      · rename_i q qs hs
        split at h
        · rcases List.mem_cons.mp h with rfl | h
          · simp
          · exact ih (hs ▸ h)
        · rename_i hc
          rcases List.mem_cons.mp h with rfl | h
          · have hq := ih (p := q) (by simp [hs])
            simp only [List.mem_cons, not_or]
            exact ⟨fun e => by simp [e] at hc, hq⟩
          · exact ih (by simp [hs, h])

/-- The texts before and after the first occurrence of a character. -/
def cutAt (c : Char) : List Char → Option (List Char × List Char)
  | [] => none
  | d :: s =>
      if d = c then some ([], s)
      else (cutAt c s).map fun (before, rest) => (d :: before, rest)

/-- A cut at a character is the one decomposition whose first part lacks it. -/
theorem cutAt_eq_some_iff {c : Char} {s before rest : List Char} :
    cutAt c s = some (before, rest) ↔ s = before ++ c :: rest ∧ c ∉ before := by
  induction s generalizing before with
  | nil => simp [cutAt]
  | cons d s ih =>
      by_cases h : d = c
      · subst h
        cases before with
        | nil => simp [cutAt]
        | cons b before =>
            simp only [cutAt, if_true, Option.some.injEq, Prod.mk.injEq, List.cons_append,
              List.cons.injEq, List.mem_cons, not_or, reduceCtorEq, false_and, false_iff]
            exact fun h => h.2.1 h.1.1
      · cases before with
        | nil => simp [cutAt, h]
        | cons b before =>
            simp only [cutAt, h, if_false, Option.map_eq_some_iff, Prod.mk.injEq, List.cons.injEq,
              List.cons_append, List.mem_cons, not_or]
            constructor
            · rintro ⟨⟨b', r'⟩, hcut, ⟨rfl, rfl⟩, rfl⟩
              obtain ⟨rfl, hb⟩ := ih.mp hcut
              exact ⟨⟨rfl, rfl⟩, Ne.symm h, hb⟩
            · rintro ⟨⟨rfl, rfl⟩, _, hb⟩
              exact ⟨(before, rest), ih.mpr ⟨rfl, hb⟩, ⟨rfl, rfl⟩, rfl⟩

/-- A character that is missing cannot be cut at. -/
theorem cutAt_eq_none_iff {c : Char} {s : List Char} : cutAt c s = none ↔ c ∉ s := by
  induction s with
  | nil => simp [cutAt]
  | cons d s ih =>
      by_cases h : d = c
      · simp [cutAt, h]
      · simp [cutAt, h, Ne.symm h, ih]

/-- The trimmed pieces that are not blank, as comma lists are read. -/
def filledPieces (separator : Char) (s : List Char) : List (List Char) :=
  ((pieces separator s).map trim).filter (!·.isEmpty)

/-! ## Words -/

/-- The maximal runs of characters that are not blank. -/
def words : List Char → List (List Char)
  | [] => []
  | c :: s =>
      if isBlank c then words s
      else
        match s, words s with
        | [], _ => [[c]]
        | d :: _, ws =>
            if isBlank d then [c] :: ws
            else
              match ws with
              | [] => [[c]]
              | w :: ws => (c :: w) :: ws

end SingleFile.Text
