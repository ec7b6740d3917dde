import SingleFile.Proofs.Source.Steps

/-!
# Reading source

The state of the source check moves along a text in a way that depends neither
on the line at which the text begins nor on the brackets that were open before
it.  This file proves both facts by one step lemma and one run lemma each, and
says in which states a text may end.

Main results:

- Theorem `checkChars_eq_ok_iff`: a text is accepted exactly when it ends outside
  literals and block comments with no bracket open.
- Theorem `run_shift`: a text that begins on a later line is read in the same way,
  with every line moved.
- Theorem `run_onTop`: a text that is read without fault is read in the same way
  above brackets that are open already.
- Theorem `run_line`: the line counts the line feeds.
-/

namespace SingleFile.Script.Source

/-! ## Acceptance -/

/-- A text may end in this mode: it is outside literals and block comments. -/
def Mode.IsResting : Mode → Prop
  | .code | .slash | .lineComment => True
  | _ => False

/-- Nothing is left open exactly outside literals and block comments and with no
bracket open. -/
theorem finish_eq_ok_iff (s : State) :
    s.finish = .ok () ↔ s.mode.IsResting ∧ s.opened = [] := by
  obtain ⟨mode, line, opened⟩ := s
  cases mode <;> cases opened <;> simp [State.finish, Mode.IsResting]

/-- A text is accepted exactly when it ends in such a state. -/
theorem checkChars_eq_ok_iff (source : List Char) :
    checkChars source = .ok () ↔
      ∃ s, run {} source = .ok s ∧ s.mode.IsResting ∧ s.opened = [] := by
  unfold checkChars
  cases run {} source with
  | error e => simp
  | ok s => simp [finish_eq_ok_iff]

/-- Whether a text is accepted is decided by checking it. -/
instance (source : String) : Decidable (check source = .ok ()) :=
  match check source with
  | .ok () => isTrue rfl
  | .error _ => isFalse nofun

/-- The two parts of a text that is read without fault. -/
theorem run_append_eq_ok_iff {s t : State} {p q : List Char} :
    run s (p ++ q) = .ok t ↔ ∃ u, run s p = .ok u ∧ run u q = .ok t := by
  rw [run_append]
  cases run s p with
  | error e => simp
  | ok u => simp

/-! ## Later lines -/

/-- The mode with its line moved. -/
def Mode.shift (k : Nat) : Mode → Mode
  | .literal q line => .literal q (line + k)
  | .escape q line => .escape q (line + k)
  | .comment line => .comment (line + k)
  | .commentStar line => .commentStar (line + k)
  | m => m

/-- The state with every line moved. -/
def State.shift (k : Nat) (s : State) : State where
  mode := s.mode.shift k
  line := s.line + k
  opened := s.opened.map fun b => (b.1, b.2 + k)

/-- The error with its line moved. -/
def Error.shift (k : Nat) (e : Error) : Error :=
  { e with line := e.line + k }

/-- A text may end in a mode whatever its line. -/
theorem Mode.isResting_shift {k : Nat} {m : Mode} : (m.shift k).IsResting ↔ m.IsResting := by
  cases m <;> exact Iff.rfl

theorem State.opened_shift_eq_nil_iff {k : Nat} {s : State} :
    (s.shift k).opened = [] ↔ s.opened = [] := by
  simp [shift]

/-- The initial state of a text that begins on a later line. -/
theorem shift_initial {line : Nat} (h : 1 ≤ line) :
    State.shift (line - 1) {} = ⟨.code, line, []⟩ := by
  have hline : 1 + (line - 1) = line := by omega
  simp [State.shift, Mode.shift, hline]

/-- What a step or a run ends in, with every line moved. -/
def shiftResult (k : Nat) : Except Error State → Except Error State
  | .ok s => .ok (s.shift k)
  | .error e => .error (e.shift k)

theorem lineAfter_add (line k : Nat) (c : Char) :
    lineAfter (line + k) c = lineAfter line c + k := by
  unfold lineAfter
  split <;> omega

theorem close_shift (k : Nat) (s : State) (b : Bracket) :
    (s.shift k).close b = shiftResult k (s.close b) := by
  obtain ⟨mode, line, opened⟩ := s
  cases opened with
  | nil => rfl
  | cons top rest =>
      obtain ⟨b', line'⟩ := top
      by_cases hb : b' = b <;>
        simp [State.close, State.shift, shiftResult, Error.shift, Mode.shift, hb]

theorem readCode_shift (k : Nat) (s : State) (c : Char) :
    (s.shift k).readCode c = shiftResult k (s.readCode c) := by
  unfold State.readCode
  cases Quote.ofChar? c with
  | some q => rfl
  | none =>
      cases Bracket.ofOpener? c with
      | some b => rfl
      | none =>
          cases Bracket.ofCloser? c with
          | some b => exact close_shift k s b
          | none =>
              by_cases hc : c = '/' <;>
                simp [State.shift, shiftResult, Mode.shift, lineAfter_add, hc]

/-- One character is read on a later line as it is on an earlier one. -/
theorem step_shift (k : Nat) (s : State) (c : Char) :
    (s.shift k).step c = shiftResult k (s.step c) := by
  have hcode := readCode_shift k s c
  obtain ⟨mode, line, opened⟩ := s
  cases mode with
  | code => exact hcode
  | slash =>
      simp only [State.step, State.shift, Mode.shift] at hcode ⊢
      split
      · rfl
      · split
        · rfl
        · exact hcode
  | literal q start =>
      simp only [State.step, State.shift, Mode.shift]
      split
      · rfl
      · split
        · rfl
        · split
          · rfl
          · simp [shiftResult, State.shift, Mode.shift, lineAfter_add]
  | escape q start => simp [State.step, State.shift, shiftResult, Mode.shift, lineAfter_add]
  | lineComment =>
      by_cases hc : c = '\n' <;>
        simp [State.step, State.shift, shiftResult, Mode.shift, lineAfter_add, hc]
  | comment start =>
      by_cases hc : c = '*' <;>
        simp [State.step, State.shift, shiftResult, Mode.shift, lineAfter_add, hc]
  | commentStar start =>
      by_cases hc : c = '/'
      · simp [State.step, State.shift, shiftResult, Mode.shift, lineAfter_add, hc]
      · by_cases hd : c = '*' <;>
          simp [State.step, State.shift, shiftResult, Mode.shift, lineAfter_add, hc, hd]

/-- A text that begins on a later line is read in the same way. -/
theorem run_shift (k : Nat) (s : State) (p : List Char) :
    run (s.shift k) p = shiftResult k (run s p) := by
  induction p generalizing s with
  | nil => rfl
  | cons c p ih =>
      rw [run_cons, run_cons, step_shift]
      cases s.step c with
      | error e => rfl
      | ok s' => exact ih s'

/-! ## Brackets that are open already -/

/-- The state above brackets that were open before it. -/
def State.onTop (s : State) (below : List (Bracket × Nat)) : State :=
  { s with opened := s.opened ++ below }

/-- One character that is read without fault is read in the same way above
brackets that are open already. -/
theorem Reads.onTop {s s' : State} {c : Char} (h : Reads s c s')
    (below : List (Bracket × Nat)) : Reads (s.onTop below) c (s'.onTop below) := by
  cases h with
  | quote code char => exact .quote code char
  | opener code char => exact .opener code char
  | closer code char top => exact .closer code char (congrArg (· ++ below) top)
  | slash code char => exact .slash code char
  | plain code char => exact .plain code char
  | beginLineComment slash char => exact .beginLineComment slash char
  | beginComment slash char => exact .beginComment slash char
  | backslash literal char => exact .backslash literal char
  | endLiteral literal char => exact .endLiteral literal char
  | inLiteral literal backslash quote feed => exact .inLiteral literal backslash quote feed
  | escaped escape => exact .escaped escape
  | inLineComment comment char => exact .inLineComment comment char
  | endLineComment comment char => exact .endLineComment comment char
  | inComment comment char => exact .inComment comment char
  | star comment char => exact .star comment char
  | endComment comment char => exact .endComment comment char

/-- A text that is read without fault is read in the same way above brackets
that are open already. -/
theorem run_onTop {s s' : State} {p : List Char} (h : run s p = .ok s')
    (below : List (Bracket × Nat)) : run (s.onTop below) p = .ok (s'.onTop below) := by
  induction p generalizing s with
  | nil =>
      cases h
      rfl
  | cons c p ih =>
      obtain ⟨t, hstep, hrest⟩ := run_cons_eq_ok_iff.mp h
      exact run_cons_eq_ok_iff.mpr ⟨_, hstep.onTop below, ih hrest⟩

/-! ## Counting lines -/

/-- The line counts the line feeds of a text. -/
theorem run_line {s s' : State} {p : List Char} (h : run s p = .ok s') :
    s'.line = s.line + p.count '\n' := by
  induction p generalizing s with
  | nil =>
      cases h
      rfl
  | cons c p ih =>
      obtain ⟨t, hstep, hrest⟩ := run_cons_eq_ok_iff.mp h
      rw [ih hrest, hstep.line_eq, lineAfter, List.count_cons]
      by_cases hc : c = '\n'
      · simp only [hc, if_true, beq_self_eq_true]
        omega
      · simp [hc]

end SingleFile.Script.Source
