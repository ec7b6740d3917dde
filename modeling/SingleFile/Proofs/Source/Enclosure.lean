import SingleFile.Proofs.Source.Neutral

/-!
# Enclosed source

A bracket that is opened before a text, and whose other half does not occur in
the text, is still open behind it, below whatever the text leaves open itself.
So text between two halves of a pair is accepted with them exactly when it ends
in code with nothing left open.

Main results:

- Theorem `run_of_onTop`: a text without the closing half of a bracket is read
  above that bracket as it is read without it.
- Theorem `checkChars_enclosed_iff`: when a text is accepted between brackets.
-/

namespace SingleFile.Script.Source

/-! ## Code -/

/-- The text ends in code with nothing left open. -/
def EndsInCode (p : List Char) : Prop :=
  ∃ s, run {} p = .ok s ∧ s.mode.IsCode ∧ s.opened = []

theorem Mode.isCode_shift {k : Nat} {m : Mode} : (m.shift k).IsCode ↔ m.IsCode := by
  cases m <;> simp [IsCode, shift]

/-- Plain text ends in code. -/
theorem endsInCode_of_plain {p : List Char} (h : ∀ c ∈ p, IsPlain c) : EndsInCode p :=
  ⟨_, run_plain h 1 [], .inl rfl, rfl⟩

/-! ## The bracket below a text -/

/-- A character that does not close the lowest open bracket is read as it is
without that bracket. -/
theorem Reads.of_onTop {s t : State} {c : Char} {b : Bracket} {line : Nat}
    (hc : s.opened = [] → c ≠ b.closer) (h : Reads (s.onTop [(b, line)]) c t) :
    ∃ s', Reads s c s' ∧ t = s'.onTop [(b, line)] := by
  cases h with
  | quote code char => exact ⟨_, .quote code char, rfl⟩
  | opener code char => exact ⟨_, .opener code char, rfl⟩
  | @closer b' line' rest code char top =>
      obtain ⟨mode, at_, opened⟩ := s
      cases opened with
      | nil =>
          simp only [State.onTop, List.nil_append, List.cons.injEq, Prod.mk.injEq] at top
          exact absurd (by rw [char, top.1.1]) (hc rfl)
      | cons first opened =>
          simp only [State.onTop, List.cons_append, List.cons.injEq] at top
          obtain ⟨rfl, rfl⟩ := top
          exact ⟨_, .closer code char rfl, rfl⟩
  | slash code char => exact ⟨_, .slash code char, rfl⟩
  | plain code char => exact ⟨_, .plain code char, rfl⟩
  | beginLineComment slash char => exact ⟨_, .beginLineComment slash char, rfl⟩
  | beginComment slash char => exact ⟨_, .beginComment slash char, rfl⟩
  | backslash literal char => exact ⟨_, .backslash literal char, rfl⟩
  | endLiteral literal char => exact ⟨_, .endLiteral literal char, rfl⟩
  | inLiteral literal backslash quote feed =>
      exact ⟨_, .inLiteral literal backslash quote feed, rfl⟩
  | escaped escape => exact ⟨_, .escaped escape, rfl⟩
  | inLineComment comment char => exact ⟨_, .inLineComment comment char, rfl⟩
  | endLineComment comment char => exact ⟨_, .endLineComment comment char, rfl⟩
  | inComment comment char => exact ⟨_, .inComment comment char, rfl⟩
  | star comment char => exact ⟨_, .star comment char, rfl⟩
  | endComment comment char => exact ⟨_, .endComment comment char, rfl⟩

/-- A text that does not close the lowest open bracket is read as it is without
that bracket. -/
theorem run_of_onTop {s t : State} {p : List Char} {b : Bracket} {line : Nat}
    (hp : b.closer ∉ p) (h : run (s.onTop [(b, line)]) p = .ok t) :
    ∃ s', run s p = .ok s' ∧ t = s'.onTop [(b, line)] := by
  induction p generalizing s with
  | nil =>
      cases h
      exact ⟨s, rfl, rfl⟩
  | cons c p ih =>
      simp only [List.mem_cons, not_or] at hp
      obtain ⟨u, hstep, hrest⟩ := run_cons_eq_ok_iff.mp h
      obtain ⟨s₁, hs₁, rfl⟩ := hstep.of_onTop fun _ => Ne.symm hp.1
      obtain ⟨s', hs', ht⟩ := ih hp.2 hrest
      exact ⟨s', run_cons_eq_ok_iff.mpr ⟨s₁, hs₁, hs'⟩, ht⟩

/-- A text that does not close the bracket before it is read as it is at the
beginning of a source. -/
theorem exists_run_of_within {p : List Char} {t : State} {b : Bracket} {line : Nat}
    (hline : 1 ≤ line) (hp : b.closer ∉ p) {at_ : Nat}
    (h : run ⟨.code, line, [(b, at_)]⟩ p = .ok t) :
    ∃ s, run {} p = .ok s ∧ t = (s.shift (line - 1)).onTop [(b, at_)] := by
  have hstart : (State.shift (line - 1) {}).onTop [(b, at_)] = ⟨.code, line, [(b, at_)]⟩ := by
    rw [shift_initial hline]
    rfl
  rw [← hstart] at h
  obtain ⟨s', hs', rfl⟩ := run_of_onTop hp h
  rw [run_shift] at hs'
  cases hrun : run {} p with
  | error e => simp [hrun, shiftResult] at hs'
  | ok s =>
      rw [hrun] at hs'
      cases hs'
      exact ⟨s, rfl, rfl⟩

/-! ## Text between brackets -/

/-- In code an opening bracket is opened. -/
theorem run_opener (b : Bracket) (line : Nat) (opened : List (Bracket × Nat)) (p : List Char) :
    run ⟨.code, line, opened⟩ (b.opener :: p) = run ⟨.code, line, (b, line) :: opened⟩ p := by
  rw [run_cons, step_eq_ok_iff.mpr (.opener (.inl rfl) rfl)]

/-- In code, above nothing, the lowest open bracket is closed. -/
theorem reads_closer {s : State} (hmode : s.mode.IsCode) (hopened : s.opened = []) (k line : Nat)
    (b : Bracket) :
    Reads ((s.shift k).onTop [(b, line)]) b.closer ⟨.code, s.line + k, []⟩ := by
  have htop : ((s.shift k).onTop [(b, line)]).opened = [(b, line)] := by
    simp [State.onTop, State.shift, hopened]
  have hcode : (s.shift k).mode.IsCode := Mode.isCode_shift.mpr hmode
  exact .closer (hcode.readsCloser b) rfl htop

/-- The lowest open bracket is only left behind by closing it in code, above
nothing. -/
theorem Reads.of_opened_eq_nil {s t : State} {line : Nat} {b : Bracket} {c : Char}
    (h : Reads (s.onTop [(b, line)]) c t) (ht : t.opened = []) :
    s.mode.IsCode ∧ s.opened = [] ∧ c = b.closer := by
  have hopen : (s.onTop [(b, line)]).opened ≠ [] := by simp [State.onTop]
  cases h with
  | @closer b' line' rest code char top =>
      simp only at ht
      rw [ht] at top
      have hopened : s.opened = [] := by
        have hlength := congrArg List.length top
        simpa [State.onTop] using hlength
      simp only [State.onTop, hopened, List.nil_append, List.cons.injEq, Prod.mk.injEq] at top
      exact ⟨code.isCode, hopened, by rw [char, top.1.1]⟩
  | opener _ _ => cases ht
  | _ => exact absurd ht hopen

/-- A text without the closing half of a bracket is accepted between the two
halves exactly when it ends in code with nothing left open. -/
theorem checkChars_enclosed_iff {b : Bracket} {p : List Char} (hp : b.closer ∉ p) :
    checkChars (b.opener :: (p ++ [b.closer])) = .ok () ↔ EndsInCode p := by
  rw [checkChars_eq_ok_iff, run_opener]
  constructor
  · rintro ⟨t, hrun, _, ht⟩
    obtain ⟨u, hu, hlast⟩ := run_append_eq_ok_iff.mp hrun
    obtain ⟨s, hs, rfl⟩ := exists_run_of_within (Nat.le_refl 1) hp hu
    obtain ⟨hmode, hopened, _⟩ := (run_singleton_eq_ok_iff.mp hlast).of_opened_eq_nil ht
    exact ⟨s, hs, Mode.isCode_shift.mp hmode, State.opened_shift_eq_nil_iff.mp hopened⟩
  · rintro ⟨s, hs, hmode, hopened⟩
    have hwithin := run_within hs (Nat.le_refl 1) [(b, 1)]
    have hclose := reads_closer hmode hopened (1 - 1) 1 b
    exact ⟨_, run_append_eq_ok_iff.mpr ⟨_, hwithin, run_singleton_eq_ok_iff.mpr hclose⟩,
      trivial, rfl⟩

end SingleFile.Script.Source
