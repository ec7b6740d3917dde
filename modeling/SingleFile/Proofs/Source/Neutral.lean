import SingleFile.Proofs.Source.Reading
import SingleFile.Proofs.Text.Blank

/-!
# Neutral source

Some text leaves the state of the source check as it found it.  Plain characters
do so, being neither quotes nor brackets nor slashes; and so does a whole line of
accepted text, whatever brackets are open around it.

Main results:

- Theorem `run_plain`: plain text in code moves no more than the line.
- Theorem `run_accepted_line`: an accepted text on lines of its own moves no more
  than the line.
- Theorem `checkChars_trim`: an accepted text is accepted when it is trimmed.
-/

namespace SingleFile.Script.Source

/-! ## Plain characters -/

/-- The characters of a class are plain when it has no quote, no bracket and no
slash. -/
theorem isPlain_of_class {p : Char → Bool} (hquote : ∀ q : Quote, p q.char = false)
    (hopener : ∀ b : Bracket, p b.opener = false)
    (hcloser : ∀ b : Bracket, p b.closer = false) (hslash : p '/' = false) {c : Char}
    (h : p c = true) : IsPlain c where
  ofChar?_eq_none := by
    cases hc : Quote.ofChar? c with
    | none => rfl
    | some q => simp [Quote.eq_char_of_ofChar? hc, hquote] at h
  ofOpener?_eq_none := by
    cases hc : Bracket.ofOpener? c with
    | none => rfl
    | some b => simp [Bracket.eq_opener_of_ofOpener? hc, hopener] at h
  ofCloser?_eq_none := by
    cases hc : Bracket.ofCloser? c with
    | none => rfl
    | some b => simp [Bracket.eq_closer_of_ofCloser? hc, hcloser] at h
  ne_slash := by
    rintro rfl
    simp [hslash] at h

theorem isPlain_of_isBlank {c : Char} (h : Text.isBlank c = true) : IsPlain c :=
  isPlain_of_class (fun q => by cases q <;> decide) (fun b => by cases b <;> decide)
    (fun b => by cases b <;> decide) (by decide) h

theorem isPlain_of_isWord {c : Char} (h : Text.isWord c = true) : IsPlain c :=
  isPlain_of_class (fun q => by cases q <;> decide) (fun b => by cases b <;> decide)
    (fun b => by cases b <;> decide) (by decide) h

/-- Plain text in code moves no more than the line. -/
theorem run_plain {p : List Char} (h : ∀ c ∈ p, IsPlain c) (line : Nat)
    (opened : List (Bracket × Nat)) :
    run ⟨.code, line, opened⟩ p = .ok ⟨.code, line + p.count '\n', opened⟩ := by
  induction p generalizing line with
  | nil => rfl
  | cons c p ih =>
      have hc : State.step ⟨.code, line, opened⟩ c =
          .ok ⟨.code, lineAfter line c, opened⟩ :=
        readCode_of_isPlain (h c List.mem_cons_self) _
      rw [run_cons, hc]
      simp only
      rw [ih (fun d hd => h d (List.mem_cons_of_mem c hd)), lineAfter, List.count_cons]
      by_cases hn : c = '\n'
      · simp only [hn, if_true, beq_self_eq_true]
        congr 2
        omega
      · simp [hn]

/-! ## Accepted text -/

/-- A text that is read without fault is read in the same way later, above
brackets that are open already. -/
theorem run_within {p : List Char} {s : State} (h : run {} p = .ok s) {line : Nat}
    (hline : 1 ≤ line) (below : List (Bracket × Nat)) :
    run ⟨.code, line, below⟩ p = .ok ((s.shift (line - 1)).onTop below) := by
  have hshift : run (State.shift (line - 1) {}) p = .ok (s.shift (line - 1)) := by
    rw [run_shift, h]
    rfl
  have hstart : (State.shift (line - 1) {}).onTop below = ⟨.code, line, below⟩ := by
    rw [shift_initial hline]
    rfl
  rw [← hstart]
  exact run_onTop hshift below

/-- An accepted text that begins in code ends where a text may end, with the same
brackets open. -/
theorem run_accepted {p : List Char} (h : checkChars p = .ok ()) {line : Nat}
    (hline : 1 ≤ line) (opened : List (Bracket × Nat)) :
    ∃ mode, mode.IsResting ∧
      run ⟨.code, line, opened⟩ p = .ok ⟨mode, line + p.count '\n', opened⟩ := by
  obtain ⟨s, hrun, hmode, hopened⟩ := (checkChars_eq_ok_iff p).mp h
  have hwithin := run_within hrun hline opened
  have hcount := run_line hwithin
  refine ⟨s.mode.shift (line - 1), Mode.isResting_shift.mpr hmode, ?_⟩
  have hsame : ((s.shift (line - 1)).onTop opened).opened = opened := by
    simp [State.onTop, State.shift, hopened]
  rw [hwithin, ← hcount]
  conv => rhs; rw [← hsame]
  rfl

/-- A line feed ends everything that a text may end in. -/
theorem step_newline {mode : Mode} (h : mode.IsResting) (line : Nat)
    (opened : List (Bracket × Nat)) :
    State.step ⟨mode, line, opened⟩ '\n' = .ok ⟨.code, line + 1, opened⟩ := by
  cases mode <;> first | rfl | exact absurd h id

/-- An accepted text on lines of its own moves no more than the line. -/
theorem run_accepted_line {p : List Char} (h : checkChars p = .ok ()) {line : Nat}
    (hline : 1 ≤ line) (opened : List (Bracket × Nat)) :
    run ⟨.code, line, opened⟩ (p ++ ['\n']) =
      .ok ⟨.code, line + p.count '\n' + 1, opened⟩ := by
  obtain ⟨mode, hmode, hrun⟩ := run_accepted h hline opened
  rw [run_append, hrun]
  simp only [run_cons, step_newline hmode, run_nil]

/-- A line comment takes in everything up to a line feed. -/
theorem run_lineComment {p : List Char} (h : '\n' ∉ p) (line : Nat)
    (opened : List (Bracket × Nat)) :
    run ⟨.lineComment, line, opened⟩ p = .ok ⟨.lineComment, line, opened⟩ := by
  induction p with
  | nil => rfl
  | cons c p ih =>
      simp only [List.mem_cons, not_or] at h
      have hc : c ≠ '\n' := fun e => h.1 e.symm
      have hstep : State.step ⟨.lineComment, line, opened⟩ c =
          .ok ⟨.lineComment, line, opened⟩ := by
        simp [State.step, lineAfter, hc]
      rw [run_cons, hstep]
      exact ih h.2

/-! ## Trimming -/

theorem Mode.ReadsCode.isResting {m : Mode} {c : Char} (h : m.ReadsCode c) : m.IsResting := by
  rcases h with rfl | ⟨rfl, _⟩ <;> trivial

/-- A blank that ends where a text may end was read where one may end. -/
theorem Reads.isResting_of_isBlank {s s' : State} {c : Char} (h : Reads s c s')
    (hc : Text.isBlank c = true) (hs' : s'.mode.IsResting) :
    s.mode.IsResting ∧ s'.opened = s.opened := by
  have hplain := isPlain_of_isBlank hc
  cases h with
  | quote _ _ => exact absurd hs' id
  | opener _ char => simpa [char] using hplain.ofOpener?_eq_none
  | closer _ char _ => simpa [char] using hplain.ofCloser?_eq_none
  | slash _ char => exact absurd char hplain.ne_slash
  | plain code _ => exact ⟨code.isResting, rfl⟩
  | beginLineComment slash _ => exact ⟨by rw [slash]; trivial, rfl⟩
  | beginComment _ _ => exact absurd hs' id
  | backslash _ _ => exact absurd hs' id
  | endLiteral _ char => simpa [char] using hplain.ofChar?_eq_none
  | inLiteral literal _ _ _ =>
      simp only [literal] at hs'
      exact absurd hs' id
  | escaped _ => exact absurd hs' id
  | inLineComment _ _ => exact ⟨hs', rfl⟩
  | endLineComment comment _ => exact ⟨by rw [comment]; trivial, rfl⟩
  | inComment _ _ => exact absurd hs' id
  | star _ _ => exact absurd hs' id
  | endComment _ char => exact absurd char hplain.ne_slash

/-- A scanner that rests behind blanks rested before them, with the same brackets open. -/
theorem isResting_of_run_blank {s s' : State} {p : List Char} (hp : Text.isBlankText p = true)
    (h : run s p = .ok s') (hs' : s'.mode.IsResting) :
    s.mode.IsResting ∧ s'.opened = s.opened := by
  induction p generalizing s with
  | nil =>
      cases h
      exact ⟨hs', rfl⟩
  | cons c p ih =>
      simp only [Text.isBlankText, List.all_cons, Bool.and_eq_true] at hp
      obtain ⟨t, hstep, hrest⟩ := run_cons_eq_ok_iff.mp h
      obtain ⟨ht, hopened⟩ := ih hp.2 hrest
      obtain ⟨hs, hopened'⟩ := hstep.isResting_of_isBlank hp.1 ht
      exact ⟨hs, hopened.trans hopened'⟩

/-- An accepted text is accepted without blanks at its end. -/
theorem checkChars_of_append_blank {p after : List Char} (hafter : Text.isBlankText after = true)
    (h : checkChars (p ++ after) = .ok ()) : checkChars p = .ok () := by
  obtain ⟨s', hrun, hmode, hopened⟩ := (checkChars_eq_ok_iff _).mp h
  obtain ⟨s, hp, hrest⟩ := run_append_eq_ok_iff.mp hrun
  obtain ⟨hs, hsame⟩ := isResting_of_run_blank hafter hrest hmode
  exact (checkChars_eq_ok_iff p).mpr ⟨s, hp, hs, hsame.symm.trans hopened⟩

/-- An accepted text is accepted without blanks at its beginning. -/
theorem checkChars_of_blank_append {before p : List Char}
    (hbefore : Text.isBlankText before = true)
    (h : checkChars (before ++ p) = .ok ()) : checkChars p = .ok () := by
  have hplain : ∀ c ∈ before, IsPlain c := fun c hc =>
    isPlain_of_isBlank (List.all_eq_true.mp hbefore c hc)
  obtain ⟨s', hrun, hmode, hopened⟩ := (checkChars_eq_ok_iff _).mp h
  have hstart : (⟨.code, 1 + before.count '\n', []⟩ : State) =
      State.shift (before.count '\n') {} := rfl
  rw [run_append, run_plain hplain, hstart] at hrun
  simp only [run_shift] at hrun
  cases hp : run {} p with
  | error e => simp [hp, shiftResult] at hrun
  | ok s =>
      rw [hp] at hrun
      cases hrun
      refine (checkChars_eq_ok_iff p).mpr ⟨s, hp, Mode.isResting_shift.mp hmode, ?_⟩
      simpa [State.shift] using hopened

/-- An accepted text is accepted when it is trimmed. -/
theorem checkChars_trim {p : List Char} (h : checkChars p = .ok ()) :
    checkChars (Text.trim p) = .ok () := by
  obtain ⟨before, after, hbefore, hafter, hp⟩ := Text.exists_eq_append_trim p
  rw [hp] at h
  exact checkChars_of_append_blank hafter (checkChars_of_blank_append hbefore h)

end SingleFile.Script.Source
