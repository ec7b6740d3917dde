import SingleFile.Script.Source

/-!
# Steps of the source check

What the source check does with one character is said once, by a relation with a
named case for every thing that can happen.  Whatever a step keeps is then a
matter of looking through these cases.

Main results:

- Theorem `step_eq_ok_iff`: the relation says exactly when a character is read
  without fault, and to which state it leads.
- Theorem `Reads.line_eq`: a step counts the line feeds.
-/

namespace SingleFile.Script.Source

/-! ## Characters -/

theorem Quote.eq_char_of_ofChar? {c : Char} {q : Quote} (h : ofChar? c = some q) :
    c = q.char := by
  unfold ofChar? at h
  split at h <;> cases h <;> rfl

theorem Bracket.eq_opener_of_ofOpener? {c : Char} {b : Bracket} (h : ofOpener? c = some b) :
    c = b.opener := by
  unfold ofOpener? at h
  split at h <;> cases h <;> rfl

theorem Bracket.eq_closer_of_ofCloser? {c : Char} {b : Bracket} (h : ofCloser? c = some b) :
    c = b.closer := by
  unfold ofCloser? at h
  split at h <;> cases h <;> rfl

/-- In code the character has no meaning of its own. -/
structure IsPlain (c : Char) : Prop where
  ofChar?_eq_none : Quote.ofChar? c = none
  ofOpener?_eq_none : Bracket.ofOpener? c = none
  ofCloser?_eq_none : Bracket.ofCloser? c = none
  ne_slash : c ≠ '/'

/-! ## Steps -/

/-- The next character may be read as code. -/
def Mode.IsCode (m : Mode) : Prop :=
  m = .code ∨ m = .slash

/-- The character is read as code: no comment begins with it. -/
def Mode.ReadsCode (m : Mode) (c : Char) : Prop :=
  m = .code ∨ m = .slash ∧ c ≠ '/' ∧ c ≠ '*'

theorem Mode.ReadsCode.isCode {m : Mode} {c : Char} (h : m.ReadsCode c) : m.IsCode := by
  rcases h with h | ⟨h, _⟩
  · exact .inl h
  · exact .inr h

/-- In code every character is read as code, unless it could belong to a comment. -/
theorem Mode.IsCode.readsCode {m : Mode} (h : m.IsCode) {c : Char} (hslash : c ≠ '/')
    (hstar : c ≠ '*') : m.ReadsCode c := by
  rcases h with h | h
  · exact .inl h
  · exact .inr ⟨h, hslash, hstar⟩

/-- In code a closing bracket is read as code. -/
theorem Mode.IsCode.readsCloser {m : Mode} (h : m.IsCode) (b : Bracket) :
    m.ReadsCode b.closer :=
  h.readsCode (by cases b <;> decide) (by cases b <;> decide)

/-- What can happen when a character is read without fault. -/
inductive Reads (s : State) (c : Char) : State → Prop where
  /-- A quote begins a literal. -/
  | quote {q : Quote} (code : s.mode.ReadsCode c) (char : c = q.char) :
      Reads s c { s with mode := .literal q s.line }
  /-- A bracket is opened. -/
  | opener {b : Bracket} (code : s.mode.ReadsCode c) (char : c = b.opener) :
      Reads s c { s with mode := .code, opened := (b, s.line) :: s.opened }
  /-- The innermost open bracket is closed. -/
  | closer {b : Bracket} {line : Nat} {rest : List (Bracket × Nat)}
      (code : s.mode.ReadsCode c) (char : c = b.closer) (top : s.opened = (b, line) :: rest) :
      Reads s c { s with mode := .code, opened := rest }
  /-- A slash may begin a comment. -/
  | slash (code : s.mode = .code) (char : c = '/') : Reads s c { s with mode := .slash }
  /-- Code goes on. -/
  | plain (code : s.mode.ReadsCode c) (char : IsPlain c) :
      Reads s c { s with mode := .code, line := lineAfter s.line c }
  /-- A second slash begins a line comment. -/
  | beginLineComment (slash : s.mode = .slash) (char : c = '/') :
      Reads s c { s with mode := .lineComment }
  /-- A star after a slash begins a block comment. -/
  | beginComment (slash : s.mode = .slash) (char : c = '*') :
      Reads s c { s with mode := .comment s.line }
  /-- A backslash escapes the next character of a literal. -/
  | backslash {q : Quote} {line : Nat} (literal : s.mode = .literal q line) (char : c = '\\') :
      Reads s c { s with mode := .escape q line }
  /-- The quote of a literal ends it. -/
  | endLiteral {q : Quote} {line : Nat} (literal : s.mode = .literal q line)
      (char : c = q.char) : Reads s c { s with mode := .code }
  /-- A literal goes on; only a template literal does so on the next line. -/
  | inLiteral {q : Quote} {line : Nat} (literal : s.mode = .literal q line)
      (backslash : c ≠ '\\') (quote : c ≠ q.char) (feed : c = '\n' → q = .backtick) :
      Reads s c { s with line := lineAfter s.line c }
  /-- Any character may be escaped. -/
  | escaped {q : Quote} {line : Nat} (escape : s.mode = .escape q line) :
      Reads s c { s with mode := .literal q line, line := lineAfter s.line c }
  /-- A line comment goes on. -/
  | inLineComment (comment : s.mode = .lineComment) (char : c ≠ '\n') : Reads s c s
  /-- A line feed ends a line comment. -/
  | endLineComment (comment : s.mode = .lineComment) (char : c = '\n') :
      Reads s c { s with mode := .code, line := lineAfter s.line c }
  /-- A block comment goes on. -/
  | inComment {line : Nat}
      (comment : s.mode = .comment line ∨ s.mode = .commentStar line ∧ c ≠ '/')
      (char : c ≠ '*') :
      Reads s c { s with mode := .comment line, line := lineAfter s.line c }
  /-- A star may end a block comment. -/
  | star {line : Nat} (comment : s.mode = .comment line ∨ s.mode = .commentStar line)
      (char : c = '*') : Reads s c { s with mode := .commentStar line }
  /-- A slash after a star ends a block comment. -/
  | endComment {line : Nat} (comment : s.mode = .commentStar line) (char : c = '/') :
      Reads s c { s with mode := .code }

theorem lineAfter_of_ne {c : Char} (h : c ≠ '\n') (line : Nat) : lineAfter line c = line := by
  simp [lineAfter, h]

/-- A bracket closes if its partner is the innermost open one, which it takes away. -/
theorem close_eq_ok {s s' : State} {b : Bracket} (h : s.close b = .ok s') :
    ∃ line rest, s.opened = (b, line) :: rest ∧ s' = { s with mode := .code, opened := rest } := by
  obtain ⟨mode, line, opened⟩ := s
  cases opened with
  | nil => cases h
  | cons top rest =>
      simp only [State.close] at h
      split at h
      · rename_i hb
        cases h
        exact ⟨top.2, rest, by rw [← hb], rfl⟩
      · cases h

/-- Code is read by one of five cases. -/
theorem reads_of_readCode {s s' : State} {c : Char} (hcode : s.mode.ReadsCode c)
    (h : s.readCode c = .ok s') : Reads s c s' := by
  unfold State.readCode at h
  cases hq : Quote.ofChar? c with
  | some q =>
      simp only [hq, Except.ok.injEq] at h
      subst h
      exact .quote hcode (Quote.eq_char_of_ofChar? hq)
  | none =>
      cases ho : Bracket.ofOpener? c with
      | some b =>
          simp only [hq, ho, Except.ok.injEq] at h
          subst h
          exact .opener hcode (Bracket.eq_opener_of_ofOpener? ho)
      | none =>
          cases hc : Bracket.ofCloser? c with
          | some b =>
              simp only [hq, ho, hc] at h
              obtain ⟨line, rest, htop, rfl⟩ := close_eq_ok h
              exact .closer hcode (Bracket.eq_closer_of_ofCloser? hc) htop
          | none =>
              simp only [hq, ho, hc, Except.ok.injEq] at h
              subst h
              by_cases hslash : c = '/'
              · rcases hcode with hcode | ⟨_, hne, _⟩
                · rw [lineAfter_of_ne (by rw [hslash]; decide)]
                  simp only [hslash, if_true]
                  exact .slash hcode rfl
                · exact absurd hslash hne
              · simp only [hslash, if_false]
                exact .plain hcode ⟨hq, ho, hc, hslash⟩

/-- A character that is read without fault is read by one of the cases. -/
theorem reads_of_step {s s' : State} {c : Char} (h : s.step c = .ok s') : Reads s c s' := by
  unfold State.step at h
  split at h
  · rename_i hmode
    exact reads_of_readCode (.inl hmode) h
  · rename_i hmode
    split at h
    · rename_i hslash
      cases h
      exact .beginLineComment hmode hslash
    · rename_i hslash
      split at h
      · rename_i hstar
        cases h
        exact .beginComment hmode hstar
      · rename_i hstar
        exact reads_of_readCode (.inr ⟨hmode, hslash, hstar⟩) h
  · rename_i q line hmode
    split at h
    · rename_i hbackslash
      cases h
      exact .backslash hmode hbackslash
    · rename_i hbackslash
      split at h
      · rename_i hquote
        cases h
        exact .endLiteral hmode hquote
      · rename_i hquote
        split at h
        · cases h
        · rename_i hfeed
          cases h
          refine .inLiteral hmode hbackslash hquote fun hc => ?_
          exact Classical.byContradiction fun hq => hfeed ⟨hc, hq⟩
  · rename_i hmode
    cases h
    exact .escaped hmode
  · rename_i hmode
    cases h
    by_cases hc : c = '\n'
    · simp only [hc, if_true]
      exact .endLineComment hmode rfl
    · simp only [hc, if_false, lineAfter_of_ne hc]
      rw [← hmode]
      exact .inLineComment hmode hc
  · rename_i line hmode
    cases h
    by_cases hc : c = '*'
    · simp only [hc, if_true]
      exact .star (.inl hmode) rfl
    · simp only [hc, if_false]
      exact .inComment (.inl hmode) hc
  · rename_i line hmode
    cases h
    by_cases hslash : c = '/'
    · simp only [hslash, if_true]
      exact .endComment hmode rfl
    · by_cases hc : c = '*'
      · simp only [hc]
        exact .star (.inr hmode) rfl
      · simp only [hslash, hc, if_false]
        exact .inComment (.inr ⟨hmode, hslash⟩) hc

/-- A closing bracket is read as one, where it is code. -/
theorem readCode_closer (s : State) (b : Bracket) : s.readCode b.closer = s.close b := by
  cases b <;> rfl

/-- A plain character that is read as code leads on in code, with the same brackets open. -/
theorem readCode_of_isPlain {c : Char} (h : IsPlain c) (s : State) :
    s.readCode c = .ok { s with mode := .code, line := lineAfter s.line c } := by
  simp [State.readCode, h.ofChar?_eq_none, h.ofOpener?_eq_none, h.ofCloser?_eq_none, h.ne_slash]

/-- In code a character is read by the rules of code. -/
theorem step_of_readsCode {s : State} {c : Char} (h : s.mode.ReadsCode c) :
    s.step c = s.readCode c := by
  obtain ⟨mode, line, opened⟩ := s
  rcases h with h | ⟨h, hslash, hstar⟩
  · cases h
    rfl
  · cases h
    simp [State.step, hslash, hstar]

/-- Each case is a step. -/
theorem step_of_reads {s s' : State} {c : Char} (h : Reads s c s') : s.step c = .ok s' := by
  cases h with
  | quote code char =>
      rw [step_of_readsCode code, char]
      simp [State.readCode]
  | opener code char =>
      rw [step_of_readsCode code, char]
      cases ‹Bracket› <;> rfl
  | @closer b line rest code char top =>
      rw [step_of_readsCode code, char, readCode_closer, State.close, top]
      simp
  | slash code char =>
      rw [step_of_readsCode (.inl code), char]
      rfl
  | plain code char =>
      rw [step_of_readsCode code, readCode_of_isPlain char]
  | beginLineComment slash char => simp [State.step, slash, char]
  | beginComment slash char => simp [State.step, slash, char]
  | backslash literal char => simp [State.step, literal, char]
  | @endLiteral q line literal char =>
      have hne : q.char ≠ '\\' := by cases q <;> decide
      simp [State.step, literal, char, hne]
  | @inLiteral q line literal backslash quote feed =>
      have hfeed : ¬(c = '\n' ∧ q ≠ .backtick) := fun h => h.2 (feed h.1)
      simp [State.step, literal, backslash, quote, hfeed]
  | escaped escape => simp [State.step, escape]
  | inLineComment comment char =>
      obtain ⟨mode, line, opened⟩ := s
      cases comment
      simp [State.step, char, lineAfter_of_ne char]
  | endLineComment comment char => simp [State.step, comment, char]
  | inComment comment char =>
      rcases comment with comment | ⟨comment, hslash⟩
      · simp [State.step, comment, char]
      · simp [State.step, comment, char, hslash]
  | star comment char =>
      have hne : '*' ≠ '\n' := by decide
      rcases comment with comment | comment
      · simp [State.step, comment, char, lineAfter_of_ne hne]
      · simp [State.step, comment, char, lineAfter_of_ne hne]
  | endComment comment char =>
      have hne : '/' ≠ '\n' := by decide
      simp [State.step, comment, char, lineAfter_of_ne hne]

/-- The relation is the step. -/
theorem step_eq_ok_iff {s s' : State} {c : Char} : s.step c = .ok s' ↔ Reads s c s' :=
  ⟨reads_of_step, step_of_reads⟩

/-- A text is read without fault one character after the other. -/
theorem run_cons_eq_ok_iff {s t : State} {c : Char} {p : List Char} :
    run s (c :: p) = .ok t ↔ ∃ u, Reads s c u ∧ run u p = .ok t := by
  simp only [run_cons, ← step_eq_ok_iff]
  cases s.step c with
  | error e => simp
  | ok u => simp

theorem run_singleton_eq_ok_iff {s t : State} {c : Char} :
    run s [c] = .ok t ↔ Reads s c t := by
  simp [run_cons_eq_ok_iff]

/-- A step counts the line feeds. -/
theorem Reads.line_eq {s s' : State} {c : Char} (h : Reads s c s') :
    s'.line = lineAfter s.line c := by
  have hne : ∀ d : Char, d ≠ '\n' → c = d → s.line = lineAfter s.line c := by
    rintro d hd rfl
    exact (lineAfter_of_ne hd _).symm
  cases h with
  | @quote q _ char => exact hne _ (by cases q <;> decide) char
  | @opener b _ char => exact hne _ (by cases b <;> decide) char
  | @closer b _ _ _ char _ => exact hne _ (by cases b <;> decide) char
  | slash _ char => exact hne _ (by decide) char
  | plain _ _ => rfl
  | beginLineComment _ char => exact hne _ (by decide) char
  | beginComment _ char => exact hne _ (by decide) char
  | backslash _ char => exact hne _ (by decide) char
  | @endLiteral q _ _ char => exact hne _ (by cases q <;> decide) char
  | inLiteral _ _ _ _ => rfl
  | escaped _ => rfl
  | inLineComment _ char => exact hne c char rfl
  | endLineComment _ _ => rfl
  | inComment _ _ => rfl
  | star _ char => exact hne _ (by decide) char
  | endComment _ char => exact hne _ (by decide) char

end SingleFile.Script.Source
