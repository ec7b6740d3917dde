import SingleFile.Proofs.Script.Occurrence
import SingleFile.Proofs.Template.Counting

/-!
# Searching for tags

A tag of each kind is a text of a certain form.  The tags of a kind are looked for
from left to right, each behind the one before it, and so a text has one number of
them: a part of another tag is not counted again, and what lies between two tags
holds none.  The counts, which read a text character by character, arrive at this
number.

Main results:

- Theorem `Finds.unique`: a search has one result.
- Theorem `finds_openTags_iff`: the opening tags that a search finds.
- Theorem `finds_closeTags_iff`: the closing tags that a search finds.
- Theorem `finds_selfClosingTags_iff`: the tags that close themselves that a search
  finds.
-/

namespace SingleFile.Template

open SingleFile.Script (StandsIn StandsFirst)

/-! ## The form of tags -/

/-- An angle, a character other than a slash, and all up to a closing angle. -/
def IsOpeningTag (t : List Char) : Prop :=
  ∃ c s, c ≠ '/' ∧ '>' ∉ s ∧ t = '<' :: c :: (s ++ ['>'])

/-- An angle and a slash, and something up to a closing angle. -/
def IsClosingTag (t : List Char) : Prop :=
  ∃ s, s ≠ [] ∧ '>' ∉ s ∧ t = '<' :: '/' :: (s ++ ['>'])

/-- An angle, and all up to a slash and a closing angle. -/
def IsSelfClosingTag (t : List Char) : Prop :=
  ∃ s, '>' ∉ s ∧ t = '<' :: (s ++ ['/', '>'])

/-! ## Searches -/

/-- Looked for from left to right, each behind the one before it, so many marks of
the kind are found in the text. -/
inductive Finds (marks : List Char → Prop) : List Char → Nat → Prop where
  | none {s : List Char} (none : ∀ before rest, ¬ StandsIn marks s before rest) : Finds marks s 0
  | next {s before rest : List Char} {n : Nat} (first : StandsFirst marks s before rest)
      (behind : Finds marks rest n) : Finds marks s (n + 1)

/-- At one place no two marks of the kind begin. -/
def IsUnambiguous (marks : List Char → Prop) : Prop :=
  ∀ t t' rest rest', marks t → marks t' → t ++ rest = t' ++ rest' → t = t'

section

variable {marks : List Char → Prop} {s w before rest before' rest' : List Char} {n k : Nat}

/-- Where ends are not ambiguous, what stands first ends at one place. -/
theorem StandsFirst.unique (hmarks : IsUnambiguous marks) (h : StandsFirst marks s before rest)
    (h' : StandsFirst marks s before' rest') : rest = rest' := by
  have hle := h.2 before' rest' h'.1
  have hge := h'.2 before rest h.1
  obtain ⟨t, ht, hs⟩ := h.1
  obtain ⟨t', ht', hs'⟩ := h'.1
  obtain ⟨_, hsame⟩ := List.append_inj (hs.symm.trans hs') (by omega)
  have htt' := hmarks t t' rest rest' ht ht' hsame
  rw [htt'] at hsame
  exact List.append_cancel_left hsame

/-- A search has one result. -/
theorem Finds.unique (hmarks : IsUnambiguous marks) (h : Finds marks s n)
    (h' : Finds marks s k) : n = k := by
  induction h generalizing k with
  | none hnone =>
      cases h' with
      | none _ => rfl
      | next first _ => exact absurd first.1 (hnone _ _)
  | next first _ ih =>
      cases h' with
      | none hnone => exact absurd first.1 (hnone _ _)
      | next first' behind' =>
          rw [StandsFirst.unique hmarks first first'] at ih
          rw [ih behind']

/-- A mark that begins behind the first of two joined texts stands in the second. -/
theorem standsIn_of_append (h : StandsIn marks (w ++ s) before rest)
    (hlength : w.length ≤ before.length) : ∃ b, before = w ++ b ∧ StandsIn marks s b rest := by
  obtain ⟨t, ht, hs⟩ := h
  obtain ⟨b, hb⟩ : w <+: before :=
    List.prefix_of_prefix_length_le ⟨s, hs⟩ (List.prefix_append before _) hlength
  refine ⟨b, hb.symm, t, ht, ?_⟩
  rw [← hb, List.append_assoc] at hs
  exact List.append_cancel_left hs

/-- Text that no mark begins in is passed over. -/
theorem Finds.skip (h : Finds marks s n)
    (hskip : ∀ before rest, StandsIn marks (w ++ s) before rest → w.length ≤ before.length) :
    Finds marks (w ++ s) n := by
  cases h with
  | none hnone =>
      apply Finds.none
      intro before rest hstands
      obtain ⟨b, _, hb⟩ := standsIn_of_append hstands (hskip before rest hstands)
      exact hnone b rest hb
  | @next _ before rest _ first behind =>
      have hfirst : StandsFirst marks (w ++ s) (w ++ before) rest := by
        constructor
        · obtain ⟨t, ht, hs⟩ := first.1
          exact ⟨t, ht, by rw [hs, List.append_assoc]⟩
        · intro before' rest' hstands
          obtain ⟨b, rfl, hb⟩ := standsIn_of_append hstands (hskip before' rest' hstands)
          have hle := first.2 b rest' hb
          simp only [List.length_append]
          omega
      exact Finds.next hfirst behind

/-- A character that no mark begins with is passed over. -/
theorem Finds.skip_cons {c : Char} (h : Finds marks s n)
    (hskip : ∀ t rest, marks t → c :: s ≠ t ++ rest) : Finds marks (c :: s) n := by
  apply Finds.skip (w := [c]) h
  intro before rest hstands
  cases before with
  | nil =>
      obtain ⟨t, ht, hs⟩ := hstands
      exact absurd hs (hskip t rest ht)
  | cons d before => simp

/-- A mark at the front of a text is the first. -/
theorem Finds.next_front {t : List Char} (h : Finds marks s n) (ht : marks t) :
    Finds marks (t ++ s) (n + 1) := by
  have hfirst : StandsFirst marks (t ++ s) [] s := by
    constructor
    · exact ⟨t, ht, rfl⟩
    · intro before' rest' _
      exact Nat.zero_le _
  exact Finds.next hfirst h

end

/-! ## Text before the first closing angle -/

/-- Two texts without a closing angle are the same when one stands behind both. -/
theorem eq_of_append_angle {p q s t : List Char} (hp : '>' ∉ p) (hq : '>' ∉ q)
    (h : p ++ '>' :: s = q ++ '>' :: t) : p = q ∧ s = t := by
  have hcut := Text.cutAt_eq_some_iff.mpr ⟨h, hq⟩
  rw [Text.cutAt_eq_some_iff.mpr ⟨rfl, hp⟩, Option.some.injEq, Prod.mk.injEq] at hcut
  exact hcut

theorem isUnambiguous_isOpeningTag : IsUnambiguous IsOpeningTag := by
  rintro t t' rest rest' ⟨c, s, _, hs, rfl⟩ ⟨c', s', _, hs', rfl⟩ h
  simp only [List.cons_append, List.append_assoc, List.cons.injEq, List.nil_append,
    true_and] at h
  rw [h.1, (eq_of_append_angle hs hs' h.2).1]

theorem isUnambiguous_isClosingTag : IsUnambiguous IsClosingTag := by
  rintro t t' rest rest' ⟨s, _, hs, rfl⟩ ⟨s', _, hs', rfl⟩ h
  simp only [List.cons_append, List.append_assoc, List.cons.injEq, List.nil_append,
    true_and] at h
  rw [(eq_of_append_angle hs hs' h).1]

theorem isUnambiguous_isSelfClosingTag : IsUnambiguous IsSelfClosingTag := by
  rintro t t' rest rest' ⟨s, hs, rfl⟩ ⟨s', hs', rfl⟩ h
  simp only [List.cons_append, List.append_assoc, List.cons.injEq, List.nil_append,
    true_and] at h
  have hslash : '>' ∉ s ++ ['/'] := by simp [hs]
  have hslash' : '>' ∉ s' ++ ['/'] := by simp [hs']
  have hsame := (eq_of_append_angle (s := rest) (t := rest') hslash hslash' (by simpa using h)).1
  rw [List.append_cancel_right hsame]

/-! ## Opening tags -/

/-- What the count of opening tags has read since no tag was begun. -/
inductive OpenMode.Pending : OpenMode → List Char → Prop where
  | outside : Pending .outside []
  | begun : Pending .begun ['<']
  | inside {c : Char} {v : List Char} (slash : c ≠ '/') (angle : '>' ∉ v) :
      Pending .inside ('<' :: c :: v)

/-- An opening tag has a closing angle behind its first two characters. -/
theorem mem_of_standsIn_isOpeningTag {c d : Char} {v before rest : List Char}
    (h : StandsIn IsOpeningTag (c :: d :: v) before rest) : '>' ∈ v := by
  obtain ⟨t, ⟨e, s, _, _, rfl⟩, hs⟩ := h
  cases before with
  | nil =>
      simp only [List.nil_append, List.cons_append, List.cons.injEq] at hs
      rw [hs.2.2]
      simp
  | cons a before =>
      cases before with
      | nil =>
          simp only [List.nil_append, List.cons_append, List.cons.injEq] at hs
          rw [hs.2.2]
          simp
      | cons b before =>
          simp only [List.cons_append, List.cons.injEq] at hs
          rw [hs.2.2]
          simp

/-- In text that leaves an opening tag pending there is no whole one. -/
theorem OpenMode.Pending.not_standsIn {m : OpenMode} {u : List Char} (h : m.Pending u)
    (before rest : List Char) : ¬ StandsIn IsOpeningTag u before rest := by
  intro hstands
  cases h with
  | inside _ hangle => exact hangle (mem_of_standsIn_isOpeningTag hstands)
  | outside =>
      obtain ⟨t, ⟨c, s, _, _, rfl⟩, hs⟩ := hstands
      simp at hs
  | begun =>
      obtain ⟨t, ⟨c, s, _, _, rfl⟩, hs⟩ := hstands
      have hlength := congrArg List.length hs
      simp at hlength
      omega

/-- From any mode the count goes on as a search that has the pending text before it. -/
theorem OpenMode.Pending.finds {m : OpenMode} {u : List Char} (h : m.Pending u)
    (s : List Char) : Finds IsOpeningTag (u ++ s) (openTagsFrom m s) := by
  induction s generalizing m u with
  | nil =>
      rw [List.append_nil, openTags_counts.nil]
      exact .none h.not_standsIn
  | cons c s ih =>
      cases h with
      | outside =>
          by_cases hc : c = '<'
          · subst hc
            exact ih .begun
          · rw [openTagsFrom, if_neg hc]
            apply (ih .outside).skip_cons
            rintro t rest ⟨d, v, _, _, rfl⟩ heq
            exact hc (List.cons.inj heq).1
      | begun =>
          by_cases hc : c = '/'
          · subst hc
            rw [openTagsFrom, if_pos rfl]
            have hrest : Finds IsOpeningTag ('/' :: s) (openTagsFrom .outside s) := by
              apply (ih .outside).skip_cons
              rintro t rest ⟨d, v, _, _, rfl⟩ heq
              exact absurd (List.cons.inj heq).1 (by decide)
            apply hrest.skip_cons
            rintro t rest ⟨d, v, hd, _, rfl⟩ heq
            exact hd (List.cons.inj (List.cons.inj heq).2).1.symm
          · rw [openTagsFrom, if_neg hc]
            exact ih (.inside hc List.not_mem_nil)
      | @inside d v hd hv =>
          by_cases hc : c = '>'
          · subst hc
            rw [openTagsFrom, if_pos rfl]
            have htag : IsOpeningTag ('<' :: d :: (v ++ ['>'])) := ⟨d, v, hd, hv, rfl⟩
            simpa using (ih .outside).next_front htag
          · rw [openTagsFrom, if_neg hc]
            have hv' : '>' ∉ v ++ [c] := by simp [hv, Ne.symm hc]
            simpa using ih (.inside hd hv')

/-- The opening tags that a search finds are those that are counted. -/
theorem finds_openTags_iff {s : List Char} {n : Nat} :
    Finds IsOpeningTag s n ↔ n = openTags s := by
  have hfinds : Finds IsOpeningTag s (openTags s) := OpenMode.Pending.outside.finds s
  constructor
  · intro h
    exact h.unique isUnambiguous_isOpeningTag hfinds
  · rintro rfl
    exact hfinds

/-! ## Closing tags -/

/-- What the count of closing tags has read since no tag was begun. -/
inductive CloseMode.Pending : CloseMode → List Char → Prop where
  | outside : Pending .outside []
  | begun : Pending .begun ['<']
  | slashed : Pending .slashed ['<', '/']
  | inside {v : List Char} (ne_nil : v ≠ []) (angle : '>' ∉ v) :
      Pending .inside ('<' :: '/' :: v)

theorem CloseMode.Pending.not_mem {m : CloseMode} {u : List Char} (h : m.Pending u) :
    '>' ∉ u := by
  cases h with
  | inside _ hangle => simp [hangle]
  | _ => decide

theorem not_standsIn_isClosingTag {u : List Char} (h : '>' ∉ u) (before rest : List Char) :
    ¬ StandsIn IsClosingTag u before rest := by
  rintro ⟨t, ⟨s, _, _, rfl⟩, rfl⟩
  simp at h

/-- No closing tag begins with the character. -/
theorem Finds.skip_close {c : Char} {s : List Char} {n : Nat} (h : Finds IsClosingTag s n)
    (hc : c ≠ '<' ∨ s.head? ≠ some '/') : Finds IsClosingTag (c :: s) n := by
  apply h.skip_cons
  rintro t rest ⟨v, _, _, rfl⟩ heq
  obtain ⟨hfirst, hsecond⟩ := List.cons.inj heq
  rcases hc with hc | hc
  · exact hc hfirst
  · exact hc (by rw [hsecond]; rfl)

/-- From any mode the count goes on as a search that has the pending text before it.
Between a slash and a closing angle there has to be something. -/
theorem CloseMode.Pending.finds {m : CloseMode} {u : List Char} (h : m.Pending u)
    (s : List Char) : Finds IsClosingTag (u ++ s) (closeTagsFrom m s) := by
  induction s generalizing m u with
  | nil =>
      rw [List.append_nil, closeTags_counts.nil]
      exact .none (not_standsIn_isClosingTag h.not_mem)
  | cons c s ih =>
      cases h with
      | outside =>
          by_cases hc : c = '<'
          · subst hc
            exact ih .begun
          · rw [closeTagsFrom, if_neg hc]
            exact (ih .outside).skip_close (.inl hc)
      | begun =>
          rw [closeTagsFrom]
          by_cases hslash : c = '/'
          · subst hslash
            exact ih .slashed
          have hsecond : (c :: s).head? ≠ some '/' := by simpa using hslash
          rw [if_neg hslash]
          by_cases hangle : c = '<'
          · subst hangle
            exact (ih .begun).skip_close (.inr hsecond)
          · rw [if_neg hangle]
            exact ((ih .outside).skip_close (.inl hangle)).skip_close (.inr hsecond)
      | slashed =>
          rw [closeTagsFrom]
          by_cases hc : c = '>'
          · subst hc
            have hangle := (ih .outside).skip_close (c := '>') (.inl (by decide))
            have hslash := hangle.skip_close (c := '/') (.inl (by decide))
            apply hslash.skip_cons
            rintro t rest ⟨v, hne, hv, rfl⟩ heq
            have htail := (List.cons.inj (List.cons.inj heq).2).2
            cases v with
            | nil => exact hne rfl
            | cons d v => exact hv (by rw [← (List.cons.inj htail).1]; exact List.mem_cons_self)
          · rw [if_neg hc]
            exact ih (.inside (List.cons_ne_nil c []) (by simp [Ne.symm hc]))
      | @inside v hne hv =>
          by_cases hc : c = '>'
          · subst hc
            rw [closeTagsFrom, if_pos rfl]
            have htag : IsClosingTag ('<' :: '/' :: (v ++ ['>'])) := ⟨v, hne, hv, rfl⟩
            simpa using (ih .outside).next_front htag
          · rw [closeTagsFrom, if_neg hc]
            have hv' : '>' ∉ v ++ [c] := by simp [hv, Ne.symm hc]
            simpa using ih (.inside (by simp) hv')

/-- The closing tags that a search finds are those that are counted. -/
theorem finds_closeTags_iff {s : List Char} {n : Nat} :
    Finds IsClosingTag s n ↔ n = closeTags s := by
  have hfinds : Finds IsClosingTag s (closeTags s) := CloseMode.Pending.outside.finds s
  constructor
  · intro h
    exact h.unique isUnambiguous_isClosingTag hfinds
  · rintro rfl
    exact hfinds

/-! ## Tags that close themselves -/

/-- What the count of tags that close themselves has read since no tag was begun. -/
inductive SelfMode.Pending : SelfMode → List Char → Prop where
  | outside : Pending .outside []
  | inside {v : List Char} (angle : '>' ∉ v) :
      Pending (.inside (v.getLast? = some '/')) ('<' :: v)

theorem SelfMode.Pending.not_mem {m : SelfMode} {u : List Char} (h : m.Pending u) :
    '>' ∉ u := by
  cases h with
  | inside hangle => simp [hangle]
  | _ => decide

theorem not_standsIn_isSelfClosingTag {u : List Char} (h : '>' ∉ u) (before rest : List Char) :
    ¬ StandsIn IsSelfClosingTag u before rest := by
  rintro ⟨t, ⟨s, _, rfl⟩, rfl⟩
  simp at h

/-- Text up to a closing angle is passed over when no slash stands before the angle. -/
theorem Finds.skip_self {v s : List Char} {n : Nat} (h : Finds IsSelfClosingTag s n)
    (hv : '>' ∉ v) (hlast : v.getLast? ≠ some '/') :
    Finds IsSelfClosingTag ('<' :: (v ++ '>' :: s)) n := by
  have hskip : Finds IsSelfClosingTag (('<' :: v ++ ['>']) ++ s) n := by
    apply h.skip
    rintro before rest ⟨t, ⟨w, hw, rfl⟩, hs⟩
    apply Nat.le_of_not_lt
    intro hlt
    -- the tag would begin before the angle, and so end with it
    have hprefix : before <+: '<' :: v := by
      have hwhole : before <+: ('<' :: v) ++ ('>' :: s) := ⟨_, by rw [← hs]; simp⟩
      apply List.prefix_of_prefix_length_le hwhole (List.prefix_append _ _)
      simp only [List.length_append, List.length_cons, List.length_nil] at hlt ⊢
      omega
    have hfree : '>' ∉ (before ++ '<' :: w) ++ ['/'] := by
      have hbefore : '>' ∉ before := fun hmem => by simpa [hv] using hprefix.subset hmem
      simp [hbefore, hw]
    have hfree' : '>' ∉ '<' :: v := by simp [hv]
    have hsame := (eq_of_append_angle (s := rest) (t := s) hfree hfree' (by simpa using hs.symm)).1
    have hend : ('<' :: v).getLast? = some '/' := by rw [← hsame, List.getLast?_concat]
    cases v with
    | nil => exact absurd hend (by decide)
    | cons d v => exact hlast (by rwa [List.getLast?_cons_cons] at hend)
  simpa using hskip

/-- From any mode the count goes on as a search that has the pending text before it. -/
theorem SelfMode.Pending.finds {m : SelfMode} {u : List Char} (h : m.Pending u)
    (s : List Char) : Finds IsSelfClosingTag (u ++ s) (selfClosingTagsFrom m s) := by
  induction s generalizing m u with
  | nil =>
      rw [List.append_nil, selfClosingTags_counts.nil]
      exact .none (not_standsIn_isSelfClosingTag h.not_mem)
  | cons c s ih =>
      cases h with
      | outside =>
          by_cases hc : c = '<'
          · subst hc
            exact ih (.inside List.not_mem_nil)
          · rw [selfClosingTagsFrom, if_neg hc]
            apply (ih .outside).skip_cons
            rintro t rest ⟨v, _, rfl⟩ heq
            exact hc (List.cons.inj heq).1
      | @inside v hv =>
          rw [selfClosingTagsFrom]
          by_cases hc : c = '>'
          · subst hc
            rw [if_pos rfl]
            by_cases hlast : v.getLast? = some '/'
            · obtain ⟨w, rfl⟩ := List.getLast?_eq_some_iff.mp hlast
              have htag : IsSelfClosingTag ('<' :: (w ++ ['/', '>'])) :=
                ⟨w, fun hmem => hv (List.mem_append_left _ hmem), rfl⟩
              simpa using (ih .outside).next_front htag
            · simpa [hlast] using (ih .outside).skip_self hv hlast
          · rw [if_neg hc]
            have hv' : '>' ∉ v ++ [c] := by simp [hv, Ne.symm hc]
            simpa using ih (.inside hv')

/-- The tags that close themselves that a search finds are those that are counted. -/
theorem finds_selfClosingTags_iff {s : List Char} {n : Nat} :
    Finds IsSelfClosingTag s n ↔ n = selfClosingTags s := by
  have hfinds : Finds IsSelfClosingTag s (selfClosingTags s) := SelfMode.Pending.outside.finds s
  constructor
  · intro h
    exact h.unique isUnambiguous_isSelfClosingTag hfinds
  · rintro rfl
    exact hfinds

end SingleFile.Template
