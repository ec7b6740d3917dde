import SingleFile.Proofs.Source.Neutral

/-!
# Cut source

An accepted text that is cut right before one of its closing brackets is nearly
always rejected: a bracket, a literal or a block comment is left open.  There is
one place where the cut goes unnoticed, namely a line comment outside all
brackets.

Main results:

- Theorem `checkChars_cut_iff`: the part of an accepted text before a closing
  bracket is accepted exactly when it ends in such a line comment.
- Theorem `exists_eq_append_of_lineComment`: how a reading comes to be in a line
  comment.
-/

namespace SingleFile.Script.Source

/-! ## Coming into a line comment -/

/-- The text ends in a line comment that stands outside all brackets, literals
and block comments. -/
def EndsInLineComment (p : List Char) : Prop :=
  ∃ u v, p = u ++ '/' :: '/' :: v ∧ checkChars u = .ok () ∧ '\n' ∉ v

/-- A slash that may begin a comment is read in code. -/
theorem Reads.eq_slash {s s' : State} {c : Char} (h : Reads s c s') (hs' : s'.mode = .slash) :
    s.mode = .code ∧ c = '/' ∧ s'.opened = s.opened := by
  cases h with
  | slash code char => exact ⟨code, char, rfl⟩
  | inLiteral literal _ _ _ => simp [literal] at hs'
  | inLineComment comment _ => simp [comment] at hs'
  | _ => cases hs'

/-- A line comment is kept by all but a line feed, and begun by a second slash. -/
theorem Reads.eq_of_lineComment {s s' : State} {c : Char} (h : Reads s c s')
    (hs' : s'.mode = .lineComment) :
    s'.opened = s.opened ∧
      ((s.mode = .lineComment ∧ c ≠ '\n') ∨ (s.mode = .slash ∧ c = '/')) := by
  cases h with
  | inLineComment comment char => exact ⟨rfl, .inl ⟨comment, char⟩⟩
  | beginLineComment slash char => exact ⟨rfl, .inr ⟨slash, char⟩⟩
  | inLiteral literal _ _ _ => simp [literal] at hs'
  | _ => cases hs'

/-- A reading that ends in a line comment began in it, began at its second
slash, or read both slashes in code; no line feed followed. -/
theorem exists_eq_append_of_lineComment {s s' : State} {p : List Char} (h : run s p = .ok s')
    (hs' : s'.mode = .lineComment) :
    (s.mode = .lineComment ∧ '\n' ∉ p ∧ s'.opened = s.opened) ∨
    (s.mode = .slash ∧ (∃ v, p = '/' :: v ∧ '\n' ∉ v) ∧ s'.opened = s.opened) ∨
    ∃ u v t, p = u ++ '/' :: '/' :: v ∧ '\n' ∉ v ∧
      run s u = .ok t ∧ t.mode = .code ∧ s'.opened = t.opened := by
  induction p generalizing s with
  | nil =>
      cases h
      exact .inl ⟨hs', List.not_mem_nil, rfl⟩
  | cons c p ih =>
      obtain ⟨s₁, hstep, hrest⟩ := run_cons_eq_ok_iff.mp h
      rcases ih hrest with ⟨hmode, hp, hopened⟩ | ⟨hmode, ⟨v, hv, hn⟩, hopened⟩ |
        ⟨u, v, t, hp, hv, hu, ht, hopened⟩
      · obtain ⟨hsame, ⟨hs, hc⟩ | ⟨hs, hc⟩⟩ := hstep.eq_of_lineComment hmode
        · refine .inl ⟨hs, ?_, hopened.trans hsame⟩
          simp only [List.mem_cons, not_or]
          exact ⟨hc.symm, hp⟩
        · exact .inr (.inl ⟨hs, ⟨p, by rw [hc], hp⟩, hopened.trans hsame⟩)
      · obtain ⟨hs, hc, hsame⟩ := hstep.eq_slash hmode
        refine .inr (.inr ⟨[], v, s, ?_, hn, rfl, hs, hopened.trans hsame⟩)
        rw [hc, hv, List.nil_append]
      · refine .inr (.inr ⟨c :: u, v, t, by rw [hp, List.cons_append], hv, ?_, ht, hopened⟩)
        exact run_cons_eq_ok_iff.mpr ⟨s₁, hstep, hu⟩

/-! ## Staying in a line comment -/

/-- Two slashes and no line feed lead from wherever a text may end into a line
comment. -/
theorem run_slashes {p : List Char} (h : '\n' ∉ p) {mode : Mode} (hmode : mode.IsResting)
    (line : Nat) (opened : List (Bracket × Nat)) :
    run ⟨mode, line, opened⟩ ('/' :: '/' :: p) = .ok ⟨.lineComment, line, opened⟩ := by
  have hslash : '\n' ∉ '/' :: p := by simp [h]
  have hslashes : '\n' ∉ '/' :: '/' :: p := by simp [h]
  cases mode with
  | code => exact run_lineComment h line opened
  | slash => exact run_lineComment hslash line opened
  | lineComment => exact run_lineComment hslashes line opened
  | _ => exact absurd hmode id

/-- A text that is fine up to a line comment at its end is accepted. -/
theorem EndsInLineComment.checkChars_eq_ok {p : List Char} (h : EndsInLineComment p) :
    checkChars p = .ok () := by
  obtain ⟨u, v, rfl, hu, hv⟩ := h
  obtain ⟨⟨mode, line, opened⟩, hrun, hmode, hopened⟩ := (checkChars_eq_ok_iff u).mp hu
  refine (checkChars_eq_ok_iff _).mpr ⟨⟨.lineComment, line, opened⟩, ?_, trivial, hopened⟩
  rw [run_append, hrun]
  exact run_slashes hv hmode line opened

/-! ## Cutting at a closing bracket -/

/-- No bracket can be closed in code when none is open. -/
theorem step_closer_of_opened_eq_nil {s : State} (hmode : s.mode.IsCode)
    (hopened : s.opened = []) (b : Bracket) :
    s.step b.closer = .error ⟨.unexpected b, s.line⟩ := by
  rw [step_of_readsCode (hmode.readsCloser b), readCode_closer, State.close, hopened]

/-- The part of an accepted text before a closing bracket is accepted exactly when it ends
in a line comment outside all brackets. In code the bracket would be unexpected. -/
theorem checkChars_cut_iff {p rest : List Char} {b : Bracket}
    (h : checkChars (p ++ b.closer :: rest) = .ok ()) :
    checkChars p = .ok () ↔ EndsInLineComment p := by
  refine ⟨fun hp => ?_, EndsInLineComment.checkChars_eq_ok⟩
  obtain ⟨s, hrun, hmode, hopened⟩ := (checkChars_eq_ok_iff p).mp hp
  obtain ⟨s', hwhole, _, _⟩ := (checkChars_eq_ok_iff _).mp h
  rw [run_append, hrun] at hwhole
  simp only [run_cons] at hwhole
  have hcomment : s.mode = .lineComment := by
    cases hm : s.mode with
    | lineComment => rfl
    | code => simp [step_closer_of_opened_eq_nil (.inl hm) hopened] at hwhole
    | slash => simp [step_closer_of_opened_eq_nil (.inr hm) hopened] at hwhole
    | _ =>
        rw [hm] at hmode
        exact absurd hmode id
  rcases exists_eq_append_of_lineComment hrun hcomment with
    ⟨hstart, _⟩ | ⟨hstart, _⟩ | ⟨u, v, t, hp, hv, hu, ht, hsame⟩
  · cases hstart
  · cases hstart
  · refine ⟨u, v, hp, (checkChars_eq_ok_iff u).mpr ⟨t, hu, ?_, hsame.symm.trans hopened⟩, hv⟩
    rw [ht]
    trivial

end SingleFile.Script.Source
