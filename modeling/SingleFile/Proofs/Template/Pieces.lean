import Mathlib.Data.List.Infix
import SingleFile.Proofs.Template.Search
import SingleFile.Proofs.Text.Blank

/-!
# Counting by pieces

A closing angle ends every tag, so that a text may be cut at its closing angles and
its tags told from the pieces alone; what stands behind the last closing angle has
none.  A piece has at most one tag of each kind.  An opening tag can take up two
pieces: an angle at the end of a piece takes the closing angle for the character
behind it, and the tag goes on to the next one.

Main results:

- Theorems `openTags_piece_append`, `closeTags_piece_append`,
  `selfClosingTags_piece_append`: what the first piece of a text adds.
- Theorem `tagCounts_pieces`: the tags that a search finds in a text, from its
  pieces.
-/

namespace SingleFile.Template

/-! ## Pieces -/

/-- The parts of a text that end at its closing angles, without these. -/
def angledPieces (s : List Char) : List (List Char) :=
  (Text.pieces '>' s).dropLast

/-- The piece holds an angle and, right behind it, a character other than a slash. -/
def HoldsOpening (p : List Char) : Prop :=
  ∃ c ∈ p, c ≠ '/' ∧ ['<', c] <:+: p

/-- The piece holds an angle, a slash right behind it, and one more character. -/
def HoldsClosing (p : List Char) : Prop :=
  ∃ c ∈ p, ['<', '/', c] <:+: p

/-- The piece holds an angle and ends in a slash. -/
def HoldsSelfClosing (p : List Char) : Prop :=
  '<' ∈ p ∧ p.getLast? = some '/'

-- decided by going through the piece, and not through all characters
instance (p : List Char) : Decidable (HoldsOpening p) :=
  List.decidableBEx (fun c => c ≠ '/' ∧ ['<', c] <:+: p) p

instance (p : List Char) : Decidable (HoldsClosing p) :=
  List.decidableBEx (fun c => ['<', '/', c] <:+: p) p

instance (p : List Char) : Decidable (HoldsSelfClosing p) :=
  inferInstanceAs (Decidable ('<' ∈ p ∧ p.getLast? = some '/'))

/-- The opening tags of pieces, from left to right.  An angle at the end of a piece
takes the next piece along, if there is one. -/
def openings : List (List Char) → Nat
  | [] => 0
  | p :: ps =>
      if HoldsOpening p then openings ps + 1
      else if p.getLast? = some '<' then
        match ps with
        | [] => 0
        | _ :: qs => openings qs + 1
      else openings ps

/-- The openings of pieces, one piece after the other. -/
theorem openings_cons (p : List Char) (ps : List (List Char)) :
    openings (p :: ps) =
      if HoldsOpening p then openings ps + 1
      else if p.getLast? = some '<' then
        match ps with
        | [] => 0
        | _ :: qs => openings qs + 1
      else openings ps := by
  cases ps with
  | nil => rfl
  | cons q qs => rfl

theorem angledPieces_of_not_mem {s : List Char} (h : '>' ∉ s) : angledPieces s = [] := by
  rw [angledPieces, Text.pieces_of_not_mem h, List.dropLast_singleton]

theorem angledPieces_append {p : List Char} (hp : '>' ∉ p) (s : List Char) :
    angledPieces (p ++ '>' :: s) = p :: angledPieces s := by
  rw [angledPieces, Text.pieces_append_cons hp,
    List.dropLast_cons_of_ne_nil (Text.pieces_ne_nil '>' s), angledPieces]

/-- What holds of texts without a closing angle, and of a text with one more piece
before it, holds of all texts. -/
theorem angled_induction {P : List Char → Prop} (last : ∀ s, '>' ∉ s → P s)
    (piece : ∀ p s, '>' ∉ p → P s → P (p ++ '>' :: s)) (s : List Char) : P s := by
  induction hn : s.length using Nat.strongRecOn generalizing s with
  | ind n ih =>
      cases hcut : Text.cutAt '>' s with
      | none => exact last s (Text.cutAt_eq_none_iff.mp hcut)
      | some cut =>
          obtain ⟨rfl, hp⟩ := Text.cutAt_eq_some_iff.mp hcut
          apply piece cut.1 cut.2 hp
          apply ih cut.2.length _ cut.2 rfl
          rw [← hn, List.length_append, List.length_cons]
          omega

/-! ## A piece and one more character -/

theorem pair_suffix_concat_iff {a b c : Char} {p : List Char} :
    [a, b] <:+ p ++ [c] ↔ b = c ∧ p.getLast? = some a := by
  constructor
  · rintro ⟨u, hu⟩
    have hsplit : (u ++ [a]) ++ [b] = p ++ [c] := by simpa using hu
    obtain ⟨hp, hc⟩ := List.append_inj' hsplit rfl
    rw [← hp, List.getLast?_concat]
    exact ⟨(List.cons.inj hc).1, rfl⟩
  · rintro ⟨rfl, hlast⟩
    obtain ⟨u, rfl⟩ := List.getLast?_eq_some_iff.mp hlast
    exact ⟨u, by simp⟩

theorem holdsOpening_iff {p : List Char} :
    HoldsOpening p ↔ ∃ c, c ≠ '/' ∧ ['<', c] <:+: p := by
  constructor
  · rintro ⟨c, _, h⟩
    exact ⟨c, h⟩
  · rintro ⟨c, hc, h⟩
    exact ⟨c, h.subset (by simp), hc, h⟩

theorem holdsClosing_iff {p : List Char} :
    HoldsClosing p ↔ ∃ c, ['<', '/', c] <:+: p := by
  constructor
  · rintro ⟨c, _, h⟩
    exact ⟨c, h⟩
  · rintro ⟨c, h⟩
    exact ⟨c, h.subset (by simp), h⟩

/-- One more character can make an opening only behind an angle. -/
theorem holdsOpening_concat_iff {p : List Char} {c : Char} :
    HoldsOpening (p ++ [c]) ↔ HoldsOpening p ∨ p.getLast? = some '<' ∧ c ≠ '/' := by
  simp only [holdsOpening_iff, List.infix_concat_iff, pair_suffix_concat_iff]
  constructor
  · rintro ⟨d, hd, ⟨rfl, hlast⟩ | hinside⟩
    · exact .inr ⟨hlast, hd⟩
    · exact .inl ⟨d, hd, hinside⟩
  · rintro (⟨d, hd, hinside⟩ | ⟨hlast, hc⟩)
    · exact ⟨d, hd, .inr hinside⟩
    · exact ⟨c, hc, .inl ⟨rfl, hlast⟩⟩

/-- One more character can make a closing only behind an angle and a slash. -/
theorem holdsClosing_concat_iff {p : List Char} {c : Char} :
    HoldsClosing (p ++ [c]) ↔ HoldsClosing p ∨ ['<', '/'] <:+ p := by
  simp only [holdsClosing_iff, List.infix_concat_iff]
  constructor
  · rintro ⟨d, ⟨u, hu⟩ | hinside⟩
    · have hsplit : (u ++ ['<', '/']) ++ [d] = p ++ [c] := by simpa using hu
      exact .inr ⟨u, (List.append_inj' hsplit rfl).1⟩
    · exact .inl ⟨d, hinside⟩
  · rintro (⟨d, hinside⟩ | ⟨u, rfl⟩)
    · exact ⟨d, .inr hinside⟩
    · exact ⟨c, .inl ⟨u, by simp⟩⟩

/-! ## The mode behind a piece -/

/-- Where the count of opening tags stands behind a piece. -/
theorem foldl_openMode {p : List Char} (hp : '>' ∉ p) :
    p.foldl OpenMode.next .outside =
      if HoldsOpening p then .inside
      else if p.getLast? = some '<' then .begun else .outside := by
  induction p using List.reverseRecOn with
  | nil => rfl
  | append_singleton p c ih =>
      simp only [List.mem_append, List.mem_singleton, not_or] at hp
      have hc : c ≠ '>' := Ne.symm hp.2
      rw [List.foldl_concat, ih hp.1]
      simp only [holdsOpening_concat_iff, List.getLast?_concat, Option.some.injEq]
      by_cases hholds : HoldsOpening p
      · simp [hholds, OpenMode.next, hc]
      by_cases hlast : p.getLast? = some '<'
      · by_cases hslash : c = '/'
        · subst hslash
          simp [hholds, hlast, OpenMode.next]
        · simp [hholds, hlast, hslash, OpenMode.next]
      · simp [hholds, hlast, OpenMode.next]

/-- Where the count of closing tags stands behind a piece. -/
theorem foldl_closeMode {p : List Char} (hp : '>' ∉ p) :
    p.foldl CloseMode.next .outside =
      if HoldsClosing p then .inside
      else if ['<', '/'] <:+ p then .slashed
      else if p.getLast? = some '<' then .begun else .outside := by
  induction p using List.reverseRecOn with
  | nil => rfl
  | append_singleton p c ih =>
      simp only [List.mem_append, List.mem_singleton, not_or] at hp
      have hc : c ≠ '>' := Ne.symm hp.2
      rw [List.foldl_concat, ih hp.1]
      simp only [holdsClosing_concat_iff, pair_suffix_concat_iff, List.getLast?_concat,
        Option.some.injEq]
      by_cases hholds : HoldsClosing p
      · simp [hholds, CloseMode.next, hc]
      by_cases hslashed : ['<', '/'] <:+ p
      · simp [hholds, hslashed, CloseMode.next, hc]
      by_cases hlast : p.getLast? = some '<'
      · by_cases hslash : c = '/'
        · subst hslash
          simp [hholds, hslashed, hlast, CloseMode.next]
        · simp [hholds, hslashed, hlast, hslash, Ne.symm hslash, CloseMode.next]
      · simp [hholds, hslashed, hlast, CloseMode.next]

/-- Where the count of tags that close themselves stands behind a piece. -/
theorem foldl_selfMode {p : List Char} (hp : '>' ∉ p) :
    p.foldl SelfMode.next .outside =
      if '<' ∈ p then .inside (p.getLast? = some '/') else .outside := by
  induction p using List.reverseRecOn with
  | nil => rfl
  | append_singleton p c ih =>
      simp only [List.mem_append, List.mem_singleton, not_or] at hp
      have hc : c ≠ '>' := Ne.symm hp.2
      rw [List.foldl_concat, ih hp.1]
      simp only [List.mem_append, List.mem_singleton, List.getLast?_concat, Option.some.injEq]
      by_cases hmem : '<' ∈ p
      · simp [hmem, SelfMode.next, hc]
      by_cases hangle : c = '<'
      · subst hangle
        simp [hmem, SelfMode.next]
      · simp [hmem, hangle, Ne.symm hangle, SelfMode.next]

theorem foldl_openMode_inside {p : List Char} (hp : '>' ∉ p) :
    p.foldl OpenMode.next .inside = .inside := by
  induction p with
  | nil => rfl
  | cons c p ih =>
      simp only [List.mem_cons, not_or] at hp
      rw [List.foldl_cons, OpenMode.next, if_neg (Ne.symm hp.1), ih hp.2]

/-! ## What a piece adds -/

/-- An opening tag in the first piece of a text ends with it; one that begins at the
end of the piece goes on behind it. -/
theorem openTags_piece_append {p : List Char} (hp : '>' ∉ p) (s : List Char) :
    openTags (p ++ '>' :: s) =
      if HoldsOpening p then openTags s + 1
      else if p.getLast? = some '<' then openTagsFrom .inside s else openTags s := by
  rw [openTags, openTags_counts.append, openTags_counts.of_not_mem hp, foldl_openMode hp]
  by_cases hholds : HoldsOpening p
  · simp [hholds, openTagsFrom, openTags]
  by_cases hlast : p.getLast? = some '<'
  · simp [hholds, hlast, openTagsFrom]
  · simp [hholds, hlast, openTagsFrom, openTags]

/-- Inside an opening tag, the tag ends with the first piece. -/
theorem openTagsFrom_inside_piece_append {p : List Char} (hp : '>' ∉ p) (s : List Char) :
    openTagsFrom .inside (p ++ '>' :: s) = openTags s + 1 := by
  rw [openTags_counts.append, openTags_counts.of_not_mem hp, foldl_openMode_inside hp]
  simp [openTagsFrom, openTags]

/-- A closing tag in the first piece of a text ends with it. -/
theorem closeTags_piece_append {p : List Char} (hp : '>' ∉ p) (s : List Char) :
    closeTags (p ++ '>' :: s) = closeTags s + if HoldsClosing p then 1 else 0 := by
  rw [closeTags, closeTags_counts.append, closeTags_counts.of_not_mem hp, foldl_closeMode hp]
  by_cases hholds : HoldsClosing p
  · simp [hholds, closeTagsFrom, closeTags]
  by_cases hslashed : ['<', '/'] <:+ p
  · simp [hholds, hslashed, closeTagsFrom, closeTags]
  by_cases hlast : p.getLast? = some '<'
  · simp [hholds, hslashed, hlast, closeTagsFrom, closeTags]
  · simp [hholds, hslashed, hlast, closeTagsFrom, closeTags]

/-- A tag that closes itself in the first piece of a text ends with it. -/
theorem selfClosingTags_piece_append {p : List Char} (hp : '>' ∉ p) (s : List Char) :
    selfClosingTags (p ++ '>' :: s) =
      selfClosingTags s + if HoldsSelfClosing p then 1 else 0 := by
  rw [selfClosingTags, selfClosingTags_counts.append, selfClosingTags_counts.of_not_mem hp,
    foldl_selfMode hp]
  by_cases hmem : '<' ∈ p
  · simp [hmem, HoldsSelfClosing, selfClosingTagsFrom, selfClosingTags]
  · simp [hmem, HoldsSelfClosing, selfClosingTagsFrom, selfClosingTags]

/-! ## All pieces -/

/-- The closing tags are the pieces that hold a closing. -/
theorem closeTags_eq_countP (s : List Char) :
    closeTags s = (angledPieces s).countP (fun p => HoldsClosing p) := by
  induction s using angled_induction with
  | last s hs =>
      rw [angledPieces_of_not_mem hs, List.countP_nil]
      exact closeTags_counts.of_not_mem hs _
  | piece p s hp ih =>
      rw [closeTags_piece_append hp, angledPieces_append hp, List.countP_cons, ih]
      simp

/-- The self-closing tags are the pieces that hold one. -/
theorem selfClosingTags_eq_countP (s : List Char) :
    selfClosingTags s = (angledPieces s).countP (fun p => HoldsSelfClosing p) := by
  induction s using angled_induction with
  | last s hs =>
      rw [angledPieces_of_not_mem hs, List.countP_nil]
      exact selfClosingTags_counts.of_not_mem hs _
  | piece p s hp ih =>
      rw [selfClosingTags_piece_append hp, angledPieces_append hp, List.countP_cons, ih]
      simp

/-- The opening tags are those of the pieces; inside a tag, the first piece is
passed over. -/
theorem openTags_eq_openings_and_inside (s : List Char) :
    openTags s = openings (angledPieces s) ∧
      openTagsFrom .inside s =
        match angledPieces s with
        | [] => 0
        | _ :: ps => openings ps + 1 := by
  induction s using angled_induction with
  | last s hs =>
      rw [angledPieces_of_not_mem hs]
      exact ⟨openTags_counts.of_not_mem hs _, openTags_counts.of_not_mem hs _⟩
  | piece p s hp ih =>
      rw [angledPieces_append hp, openTags_piece_append hp, openTagsFrom_inside_piece_append hp,
        ih.1, ih.2, openings_cons]
      exact ⟨rfl, rfl⟩

/-- The counts are those of a search for tags from left to right, and can be told
from the pieces of a text.  A closing tag lies in each piece that holds an angle, a
slash and one more character; a tag that closes itself, in each piece that holds an
angle and ends in a slash; and the opening tags are met by going through the pieces
in order.  The balance is made of these numbers. -/
theorem tagCounts_pieces (s : List Char) :
    (∀ n, Finds IsClosingTag s n ↔ n = closeTags s) ∧
    closeTags s = (angledPieces s).countP (fun p => HoldsClosing p) ∧
    (∀ n, Finds IsSelfClosingTag s n ↔ n = selfClosingTags s) ∧
    selfClosingTags s = (angledPieces s).countP (fun p => HoldsSelfClosing p) ∧
    (∀ n, Finds IsOpeningTag s n ↔ n = openTags s) ∧
    openTags s = openings (angledPieces s) ∧
    tagImbalance s =
      (openings (angledPieces s) : Int) -
        (angledPieces s).countP (fun p => HoldsSelfClosing p) -
          (angledPieces s).countP (fun p => HoldsClosing p) := by
  have hclose := closeTags_eq_countP s
  have hself := selfClosingTags_eq_countP s
  have hopen := (openTags_eq_openings_and_inside s).1
  refine ⟨fun _ => finds_closeTags_iff, hclose, fun _ => finds_selfClosingTags_iff, hself,
    fun _ => finds_openTags_iff, hopen, ?_⟩
  rw [tagImbalance, hopen, hself, hclose]

/-- A tag over two pieces, and a piece that closes itself without being a closing
tag. -/
example : openings (angledPieces "<>x>".toList) = 1 ∧
    (angledPieces "</>".toList).countP (fun p => HoldsSelfClosing p) = 1 ∧
    (angledPieces "</>".toList).countP (fun p => HoldsClosing p) = 0 := by
  decide

end SingleFile.Template
