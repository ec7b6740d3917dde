/-!
# Counting tags

Whether a template's tags match is decided by counting, not by nesting.  Three
counts are taken over the whole text, each from left to right: opening tags,
closing tags, and tags that close themselves.  An opening tag is an angle, one
character that is no slash, and the text up to the next closing angle; so a tag
that closes itself counts as an opening tag too, and is taken off again.

Main results:

- `openTags_append_of_outside`, `closeTags_append_of_outside`,
  `selfClosingTags_append_of_outside`: text without an angle adds nothing.
-/

namespace SingleFile.Template

/-! ## Opening tags -/

/-- Where a count of opening tags stands. -/
inductive OpenMode where
  /-- Outside a tag. -/
  | outside
  /-- After an angle. -/
  | begun
  /-- Inside a tag. -/
  | inside
deriving DecidableEq, Repr

/-- The opening tags that end in a text, read from a mode. -/
def openTagsFrom : OpenMode → List Char → Nat
  | _, [] => 0
  | .outside, c :: s => openTagsFrom (if c = '<' then .begun else .outside) s
  | .begun, c :: s => openTagsFrom (if c = '/' then .outside else .inside) s
  | .inside, c :: s => if c = '>' then openTagsFrom .outside s + 1 else openTagsFrom .inside s

/-- The number of opening tags. -/
def openTags (s : List Char) : Nat :=
  openTagsFrom .outside s

/-! ## Closing tags -/

/-- Where a count of closing tags stands. -/
inductive CloseMode where
  /-- Outside a tag. -/
  | outside
  /-- After an angle. -/
  | begun
  /-- After an angle and a slash. -/
  | slashed
  /-- Inside a tag, after its first character. -/
  | inside
deriving DecidableEq, Repr

/-- The closing tags that end in a text, read from a mode. -/
def closeTagsFrom : CloseMode → List Char → Nat
  | _, [] => 0
  | .outside, c :: s => closeTagsFrom (if c = '<' then .begun else .outside) s
  | .begun, c :: s =>
      closeTagsFrom (if c = '/' then .slashed else if c = '<' then .begun else .outside) s
  | .slashed, c :: s => closeTagsFrom (if c = '>' then .outside else .inside) s
  | .inside, c :: s => if c = '>' then closeTagsFrom .outside s + 1 else closeTagsFrom .inside s

/-- The number of closing tags. -/
def closeTags (s : List Char) : Nat :=
  closeTagsFrom .outside s

/-! ## Tags that close themselves -/

/-- Where a count of tags that close themselves stands. -/
inductive SelfMode where
  /-- Outside a tag. -/
  | outside
  /-- Inside a tag; the flag tells whether the last character was a slash. -/
  | inside (slash : Bool)
deriving DecidableEq, Repr

/-- The tags ending in a slash that end in a text, read from a mode. -/
def selfClosingTagsFrom : SelfMode → List Char → Nat
  | _, [] => 0
  | .outside, c :: s => selfClosingTagsFrom (if c = '<' then .inside false else .outside) s
  | .inside slash, c :: s =>
      if c = '>' then selfClosingTagsFrom .outside s + (if slash then 1 else 0)
      else selfClosingTagsFrom (.inside (c = '/')) s

/-- The number of tags that close themselves. -/
def selfClosingTags (s : List Char) : Nat :=
  selfClosingTagsFrom .outside s

/-! ## The balance -/

/-- How many more tags are opened than closed. -/
def tagImbalance (s : List Char) : Int :=
  (openTags s : Int) - selfClosingTags s - closeTags s

/-- Text without an angle adds no opening tag. -/
theorem openTags_append_of_outside {s : List Char} (h : '<' ∉ s) (t : List Char) :
    openTags (s ++ t) = openTags t := by
  induction s with
  | nil => rfl
  | cons c s ih =>
      simp only [List.mem_cons, not_or] at h
      simpa [openTags, openTagsFrom, Ne.symm h.1] using ih h.2

/-- Text without an angle adds no closing tag. -/
theorem closeTags_append_of_outside {s : List Char} (h : '<' ∉ s) (t : List Char) :
    closeTags (s ++ t) = closeTags t := by
  induction s with
  | nil => rfl
  | cons c s ih =>
      simp only [List.mem_cons, not_or] at h
      simpa [closeTags, closeTagsFrom, Ne.symm h.1] using ih h.2

/-- Text without an angle adds no tag that closes itself. -/
theorem selfClosingTags_append_of_outside {s : List Char} (h : '<' ∉ s) (t : List Char) :
    selfClosingTags (s ++ t) = selfClosingTags t := by
  induction s with
  | nil => rfl
  | cons c s ih =>
      simp only [List.mem_cons, not_or] at h
      simpa [selfClosingTags, selfClosingTagsFrom, Ne.symm h.1] using ih h.2

end SingleFile.Template
