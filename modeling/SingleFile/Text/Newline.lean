/-!
# Line ends

A text may end its lines with a line feed, a carriage return, or the two
together.  Reading a file makes all of them line feeds.

A text that is shown line by line ends its lines at more characters: also at the
vertical tab, the form feed, three of the ASCII information separators, and the
breaks beyond ASCII.

Main results:

- `not_mem_unifyNewlines`: a read text holds no carriage return.
- `isLineBreak_of_mem_lines`: no line holds a character that ends one.
- `lines_eq_nil_iff`: only the empty text has no line.
-/

namespace SingleFile.Text

/-- Every line end becomes one line feed. -/
def unifyNewlines : List Char → List Char
  | [] => []
  | '\r' :: '\n' :: s => '\n' :: unifyNewlines s
  | '\r' :: s => '\n' :: unifyNewlines s
  | c :: s => c :: unifyNewlines s

/-- A text with unified line ends holds no carriage return. -/
theorem not_mem_unifyNewlines (s : List Char) : '\r' ∉ unifyNewlines s := by
  fun_induction unifyNewlines s <;> simp_all
  rename_i h _
  exact fun e => h e.symm

/-- The characters that end a shown line. -/
def isLineBreak (c : Char) : Bool :=
  let n := c.toNat
  (10 ≤ n && n ≤ 13) || (28 ≤ n && n ≤ 30) || n == 0x85 || n == 0x2028 || n == 0x2029

/-- A character in front of the first line. -/
def consLine (c : Char) : List (List Char) → List (List Char)
  | [] => [[c]]
  | l :: ls => (c :: l) :: ls

/-- The shown lines of a text; a carriage return and a line feed end one line
together, and what ends the text starts no other line. -/
def lines : List Char → List (List Char)
  | [] => []
  | '\r' :: '\n' :: s => [] :: lines s
  | c :: s => if isLineBreak c then [] :: lines s else consLine c (lines s)

/-- No line holds a character that ends one. -/
theorem isLineBreak_of_mem_lines {s l : List Char} (hl : l ∈ lines s) {c : Char} (hc : c ∈ l) :
    isLineBreak c = false := by
  fun_induction lines s generalizing l with
  | case1 => cases hl
  | case2 s ih =>
      rcases List.mem_cons.mp hl with rfl | hl
      · cases hc
      · exact ih hl hc
  | case3 d s _ hd ih =>
      rcases List.mem_cons.mp hl with rfl | hl
      · cases hc
      · exact ih hl hc
  | case4 d s _ hd ih =>
      have hd : isLineBreak d = false := by simpa using hd
      cases hs : lines s with
      | nil =>
          rw [hs] at hl
          rw [List.mem_singleton.mp hl] at hc
          rw [List.mem_singleton.mp hc]
          exact hd
      | cons m ms =>
          rw [hs] at hl ih
          rcases List.mem_cons.mp hl with rfl | hl
          · rcases List.mem_cons.mp hc with rfl | hc
            · exact hd
            · exact ih (List.mem_cons_self ..) hc
          · exact ih (List.mem_cons_of_mem _ hl) hc

/-- Only the empty text has no line. -/
theorem lines_eq_nil_iff (s : List Char) : lines s = [] ↔ s = [] := by
  fun_cases lines s with
  | case1 => simp
  | case2 => simp
  | case3 => simp
  | case4 c s => cases h : lines s <;> simp [consLine]

end SingleFile.Text
