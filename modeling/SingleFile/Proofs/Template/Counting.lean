import SingleFile.Template.Tags

/-!
# Counting in parts

A count of tags reads a text character by character and keeps nothing but its
mode.  So a text may be counted in parts: behind its first part the count goes on
from the mode that the first part has led to.  Only a closing angle ends a tag, so
that a part without one adds nothing.

Main results:

- Theorem `Counts.append`: the count of two joined texts.
- Theorem `Counts.append_of_not_mem`: text without a closing angle adds nothing to
  what stands before it.
- Theorems `openTags_counts`, `closeTags_counts`, `selfClosingTags_counts`: the
  three counts are of this kind.
-/

namespace SingleFile.Template

/-! ## Modes -/

/-- Where a count of opening tags stands behind one more character. -/
def OpenMode.next : OpenMode → Char → OpenMode
  | .outside, c => if c = '<' then .begun else .outside
  | .begun, c => if c = '/' then .outside else .inside
  | .inside, c => if c = '>' then .outside else .inside

/-- Where a count of closing tags stands behind one more character. -/
def CloseMode.next : CloseMode → Char → CloseMode
  | .outside, c => if c = '<' then .begun else .outside
  | .begun, c => if c = '/' then .slashed else if c = '<' then .begun else .outside
  | .slashed, c => if c = '>' then .outside else .inside
  | .inside, c => if c = '>' then .outside else .inside

/-- Where a count of tags that close themselves stands behind one more character. -/
def SelfMode.next : SelfMode → Char → SelfMode
  | .outside, c => if c = '<' then .inside false else .outside
  | .inside _, c => if c = '>' then .outside else .inside (c = '/')

/-! ## Counts -/

/-- The count goes from mode to mode, and only a closing angle adds to it. -/
structure Counts {σ : Type} (count : σ → List Char → Nat) (next : σ → Char → σ) : Prop where
  nil : ∀ m, count m [] = 0
  cons : ∀ m c s, count m (c :: s) = count m [c] + count (next m c) s
  angle : ∀ m c, c ≠ '>' → count m [c] = 0

namespace Counts

variable {σ : Type} {count : σ → List Char → Nat} {next : σ → Char → σ}

/-- Behind the first of two joined texts the count goes on from the mode there. -/
theorem append (h : Counts count next) (m : σ) (s t : List Char) :
    count m (s ++ t) = count m s + count (s.foldl next m) t := by
  induction s generalizing m with
  | nil => rw [h.nil, Nat.zero_add, List.nil_append, List.foldl_nil]
  | cons c s ih =>
      rw [List.cons_append, h.cons, ih, h.cons m c s, List.foldl_cons, Nat.add_assoc]

/-- A text without a closing angle adds nothing. -/
theorem of_not_mem (h : Counts count next) {s : List Char} (hs : '>' ∉ s) (m : σ) :
    count m s = 0 := by
  induction s generalizing m with
  | nil => exact h.nil m
  | cons c s ih =>
      have hc : c ≠ '>' := fun heq => hs (by rw [heq]; exact List.mem_cons_self)
      have hrest : '>' ∉ s := fun hmem => hs (List.mem_cons_of_mem c hmem)
      rw [h.cons, h.angle m c hc, ih hrest]

/-- Text without a closing angle adds nothing to what stands before it. -/
theorem append_of_not_mem (h : Counts count next) {after : List Char} (hafter : '>' ∉ after)
    (m : σ) (s : List Char) : count m (s ++ after) = count m s := by
  rw [h.append, h.of_not_mem hafter, Nat.add_zero]

end Counts

/-- The count of opening tags can be taken in parts. -/
theorem openTags_counts : Counts openTagsFrom OpenMode.next where
  nil m := by cases m <;> rfl
  cons m c s := by
    cases m with
    | outside => simp [openTagsFrom, OpenMode.next]
    | begun => simp [openTagsFrom, OpenMode.next]
    | inside => by_cases hc : c = '>' <;> simp [openTagsFrom, OpenMode.next, hc, Nat.add_comm]
  angle m c hc := by cases m <;> simp [openTagsFrom, hc]

/-- The count of closing tags can be taken in parts. -/
theorem closeTags_counts : Counts closeTagsFrom CloseMode.next where
  nil m := by cases m <;> rfl
  cons m c s := by
    cases m with
    | outside => simp [closeTagsFrom, CloseMode.next]
    | begun => simp [closeTagsFrom, CloseMode.next]
    | slashed => simp [closeTagsFrom, CloseMode.next]
    | inside => by_cases hc : c = '>' <;> simp [closeTagsFrom, CloseMode.next, hc, Nat.add_comm]
  angle m c hc := by cases m <;> simp [closeTagsFrom, hc]

/-- The count of tags that close themselves can be taken in parts. -/
theorem selfClosingTags_counts : Counts selfClosingTagsFrom SelfMode.next where
  nil m := by cases m <;> rfl
  cons m c s := by
    cases m with
    | outside => simp [selfClosingTagsFrom, SelfMode.next]
    | inside slash =>
        by_cases hc : c = '>' <;> simp [selfClosingTagsFrom, SelfMode.next, hc, Nat.add_comm]
  angle m c hc := by cases m <;> simp [selfClosingTagsFrom, hc]

end SingleFile.Template
