import SingleFile.Proofs.Source.Diagnosis

/-!
# Source in context

Accepted text on lines of its own means nothing to the text around it.  Whatever
stands before it, if only it ends in code, and whatever follows, the whole is judged
as if the lines were blank: it is accepted or has the same fault, at the same piece.

Main results:

- Theorem `Frame.cases`: what the text around whole lines says about all lines that
  leave no bracket open.
- Theorems `MayGoOn.check_between_iff` and `MayGoOn.faultAt_between`: an accepted text
  between two others is judged as a blank line is.
- Theorem `MayGoOn.run_between`: the check comes out of an accepted text as it went in.
-/

namespace SingleFile.Script.Source

/-! ## Lines between other text -/

/-- Tokens that stand by themselves before any text and leave the open brackets as
they are. -/
structure IsNeutral (ts : List Token) : Prop where
  precede : ∀ rest, Precede ts rest
  nested : WellNested (brackets ts)

/-- Accepted text is neutral on a line of its own. -/
theorem exists_isNeutral {p : List Char} (h : checkChars p = .ok ()) :
    ∃ ts, written ts = p ++ ['\n'] ∧ IsNeutral ts := by
  obtain ⟨us, hs, hnested⟩ := (check_eq_ok_iff_splits (String.ofList p)).mp (by simpa [check])
  obtain ⟨ts, hts, hsame, hprecede⟩ := hs.exists_precede
  exact ⟨ts, by simpa using hts, hprecede, by rwa [hsame]⟩

theorem isNeutral_nil : IsNeutral [] where
  precede _ := trivial
  nested := .nil

/-- The text around lines: tokens that stand by themselves and leave brackets open, and
the rest behind the lines. -/
structure Frame where
  front : List Token
  opened : List Bracket
  rest : List Char
  precede : ∀ later, Precede front later
  leaves : Leaves [] (brackets front) opened

/-- The text with lines put in. -/
def Frame.around (k : Frame) (lines : List Token) : List Char :=
  written k.front ++ (written lines ++ k.rest)

/-- Up to the rest, a frame leaves its brackets open around neutral lines. -/
theorem Frame.leaves_append (k : Frame) {lines : List Token} (h : IsNeutral lines) :
    Leaves [] (brackets (k.front ++ lines)) k.opened := by
  rw [brackets_append]
  exact leaves_append_iff.mpr ⟨k.opened, k.leaves, h.nested.leaves k.opened⟩

/-- Neutral lines behind the front stand by themselves before the rest. -/
theorem Frame.precede_append (k : Frame) {lines : List Token} (h : IsNeutral lines) :
    Precede (k.front ++ lines) k.rest :=
  precede_append_iff.mpr ⟨k.precede _, h.precede k.rest⟩

/-- A rest that closes all brackets makes an accepted source. -/
theorem Frame.check_of_closesTo {k : Frame} (hclose : ClosesTo k.opened k.rest [])
    {lines : List Token} (h : IsNeutral lines) : checkChars (k.around lines) = .ok () := by
  obtain ⟨ts, inner, hs, hopened, hword⟩ := hclose
  rw [List.append_nil] at hopened
  subst hopened
  have hsplits := (k.precede_append h).splits hs
  have hnested : WellNested (brackets (k.front ++ lines ++ ts)) := by
    rw [wellNested_iff_closes, closes_iff_leaves, brackets_append]
    exact leaves_append_iff.mpr ⟨k.opened, k.leaves_append h, closes_iff_leaves.mp hword⟩
  have hcheck := (check_eq_ok_iff_splits (String.ofList (k.around lines))).mpr
    ⟨_, by simpa [around] using hsplits, hnested⟩
  simpa [check] using hcheck

/-- A fault of the rest is one of the text. -/
theorem Frame.faultAt_of_above {k : Frame} {f : Fault} {later : List Char}
    (hfault : FaultAbove k.opened k.rest f later) {lines : List Token} (h : IsNeutral lines) :
    FaultAt (k.around lines) f (written k.front ++ (written lines ++ later)) := by
  have happend := hfault.append (k.precede_append h) (k.leaves_append h)
  rw [faultAt_iff_above]
  simpa [around] using happend

/-- A bracket that the rest leaves open has no partner in the text. -/
theorem Frame.exists_faultAt {k : Frame} {b : Bracket} {outer : List Bracket}
    (hclose : ClosesTo k.opened k.rest (b :: outer)) :
    ∃ front back, k.front = front ++ .single b.opener :: back ∧
      ∀ lines, IsNeutral lines → FaultAt (k.around lines) (.missingCloser b) (written front) := by
  obtain ⟨ts, inner, hs, hopened, hword⟩ := hclose
  have hopen : LeftOpen (inner ++ b :: outer) (brackets k.front) := by
    rw [leftOpen_iff_leaves, ← hopened]
    exact k.leaves
  obtain ⟨front, back, hfront, houter, hinner⟩ := exists_single_of_leftOpen hopen
  refine ⟨front, back, hfront, fun lines h => ?_⟩
  have hprecede := k.precede_append h
  rw [hfront, List.append_assoc, precede_append_iff] at hprecede
  have hsplits : Splits (written (back ++ lines) ++ k.rest) (back ++ lines ++ ts) :=
    hprecede.2.2.splits hs
  have hnested : WellNested (brackets (back ++ lines ++ ts)) := by
    rw [wellNested_iff_closes, closes_iff_leaves, brackets_append, brackets_append]
    refine leaves_append_iff.mpr ⟨inner, leaves_append_iff.mpr ⟨inner, ?_, ?_⟩, ?_⟩
    · exact leftOpen_iff_leaves.mp hinner
    · exact h.nested.leaves inner
    · exact closes_iff_leaves.mp hword
  refine ⟨front, b.opener :: (written (back ++ lines) ++ k.rest), outer, rfl, ?_, ?_, houter,
    .missingCloser hsplits hnested⟩
  · simp [around, hfront, Token.text]
  · simpa [Token.text] using hprecede.1

/-- What the text around lines says about all neutral lines: it accepts them, has a
bracket before them that nothing closes, or has a fault behind them. -/
theorem Frame.cases (k : Frame) :
    (∀ lines, IsNeutral lines → checkChars (k.around lines) = .ok ()) ∨
    (∃ b front back, k.front = front ++ .single b.opener :: back ∧
      ∀ lines, IsNeutral lines → FaultAt (k.around lines) (.missingCloser b) (written front)) ∨
    ∃ f later, ∀ lines, IsNeutral lines →
      FaultAt (k.around lines) f (written k.front ++ (written lines ++ later)) := by
  rcases settled k.opened k.rest with ⟨outer, hclose⟩ | ⟨f, later, hfault⟩
  · cases outer with
    | nil => exact .inl fun _ h => Frame.check_of_closesTo hclose h
    | cons b outer => exact .inr (.inl ⟨b, Frame.exists_faultAt hclose⟩)
  · exact .inr (.inr ⟨f, later, fun _ h => Frame.faultAt_of_above hfault h⟩)

/-- Neutral lines are accepted in the same frames. -/
theorem Frame.checkChars_around_iff (k : Frame) {lines lines' : List Token}
    (h : IsNeutral lines) (h' : IsNeutral lines') :
    checkChars (k.around lines) = .ok () ↔ checkChars (k.around lines') = .ok () := by
  rcases k.cases with haccept | ⟨b, front, back, _, hfault⟩ | ⟨f, later, hfault⟩
  · simp [haccept lines h, haccept lines' h']
  · simp [(hfault lines h).check_eq_error, (hfault lines' h').check_eq_error]
  · simp [(hfault lines h).check_eq_error, (hfault lines' h').check_eq_error]

/-! ## Text that ends in code -/

/-- The text is accepted, or a bracket is missing its partner and nothing else is
wrong. -/
def MayGoOn (p : List Char) : Prop :=
  checkChars p = .ok () ∨ ∃ b line, checkChars p = .error ⟨.missingCloser b, line⟩

/-- A text that may go on splits completely, and may leave brackets open. -/
theorem MayGoOn.exists_leavesOpen {p : List Char} (h : MayGoOn p) :
    ∃ opened, LeavesOpen p opened := by
  rcases h with h | ⟨b, line, h⟩
  · obtain ⟨ts, hs, hnested⟩ := (check_eq_ok_iff_splits (String.ofList p)).mp (by simpa [check])
    exact ⟨[], ts, by simpa using hs, hnested⟩
  · obtain ⟨before, hfault, _⟩ := checkChars_eq_error_iff.mp h
    obtain ⟨outer, hopen⟩ := hfault.leavesOpen
    exact ⟨b :: outer, hopen⟩

/-- Such a text is the front of a frame, on lines of its own. -/
theorem MayGoOn.exists_frame {p : List Char} (h : MayGoOn p) (rest : List Char) :
    ∃ k : Frame, written k.front = p ++ ['\n'] ∧ k.rest = rest := by
  obtain ⟨opened, ts, hs, hopen⟩ := h.exists_leavesOpen
  obtain ⟨us, hus, hsame, hprecede⟩ := hs.exists_precede
  rw [leftOpen_iff_leaves, ← hsame] at hopen
  exact ⟨⟨us, opened, rest, hprecede, hopen⟩, hus, rfl⟩

/-- The check of such a text stands in code behind its last line. One that is rejected for
good is not completed by closing its brackets. -/
theorem MayGoOn.exists_run {p : List Char} (h : MayGoOn p) :
    ∃ l opened, 1 ≤ l ∧ run {} (p ++ ['\n']) = .ok ⟨.code, l, opened⟩ := by
  obtain ⟨kinds, hopen⟩ := h.exists_leavesOpen
  cases hrun : run {} p with
  | error e =>
      have hcompleted := hopen.checkChars_append
      simp only [checkChars, run_append_of_error hrun] at hcompleted
      cases hcompleted
  | ok s =>
      obtain ⟨mode, l, opened⟩ := s
      have hmode : mode.IsResting := by
        simp only [MayGoOn, checkChars, hrun] at h
        cases mode with
        | literal q line => cases q <;> simp [State.finish, Quote.unterminated] at h
        | escape q line => cases q <;> simp [State.finish, Quote.unterminated] at h
        | comment line => simp [State.finish] at h
        | commentStar line => simp [State.finish] at h
        | _ => trivial
      refine ⟨l + 1, opened, by omega, ?_⟩
      rw [run_append, hrun]
      simp only [run_cons, step_newline hmode, run_nil]

/-- An opening bracket does not end a line. -/
theorem length_lt_of_opener {front back p : List Char} {b : Bracket}
    (h : front ++ b.opener :: back = p ++ ['\n']) : front.length < p.length := by
  have hlength := congrArg List.length h
  simp only [List.length_append, List.length_cons, List.length_nil] at hlength
  cases back with
  | nil =>
      have hlast := congrArg List.getLast? h
      simp only [List.getLast?_append, List.getLast?_singleton, Option.some_or,
        Option.some.injEq] at hlast
      cases b <;> cases hlast
  | cons c back =>
      simp only [List.length_cons] at hlength
      omega

/-! ## Accepted text in context -/

/-- A text on lines of its own between two others. -/
def between (p b q : List Char) : List Char :=
  p ++ '\n' :: (b ++ '\n' :: q)

/-- Put in a frame, lines stand between the texts that it was made of. -/
theorem Frame.around_eq_between {k : Frame} {lines : List Token} {p b : List Char}
    (hfront : written k.front = p ++ ['\n']) (hlines : written lines = b ++ ['\n']) :
    k.around lines = between p b k.rest := by
  simp [around, between, hfront, hlines]

section Between

variable {p b : List Char}

theorem checkChars_nil : checkChars [] = .ok () :=
  rfl

/-- Between other text an accepted text is accepted when a blank line is. -/
theorem MayGoOn.check_between_iff (hp : MayGoOn p) (hb : checkChars b = .ok ())
    (q : List Char) :
    checkChars (between p b q) = .ok () ↔ checkChars (between p [] q) = .ok () := by
  obtain ⟨k, hfront, rfl⟩ := hp.exists_frame q
  obtain ⟨lines, hlines, hneutral⟩ := exists_isNeutral hb
  obtain ⟨blank, hblank, hneutral'⟩ := exists_isNeutral checkChars_nil
  rw [← Frame.around_eq_between hfront hlines, ← Frame.around_eq_between hfront hblank]
  exact k.checkChars_around_iff hneutral hneutral'

/-- Between other text an accepted text leads to the same fault as a blank line, at the
same piece: one of the text before, or one of the text behind. -/
theorem MayGoOn.faultAt_between (hp : MayGoOn p) (hb : checkChars b = .ok ()) {q : List Char}
    {e e' : Error} (he : checkChars (between p b q) = .error e)
    (he' : checkChars (between p [] q) = .error e') :
    e.fault = e'.fault ∧ ∀ before, FaultAt (between p [] q) e'.fault before →
      (before.length < p.length ∧ e.line = e'.line ∧ FaultAt (between p b q) e.fault before) ∨
      ∃ later, before = between p [] later ∧ e.line = e'.line + b.count '\n' ∧
        FaultAt (between p b q) e.fault (between p b later) := by
  obtain ⟨k, hfront, rfl⟩ := hp.exists_frame q
  obtain ⟨lines, hlines, hneutral⟩ := exists_isNeutral hb
  obtain ⟨blank, hblank, hneutral'⟩ := exists_isNeutral checkChars_nil
  rw [← Frame.around_eq_between hfront hlines] at he ⊢
  rw [← Frame.around_eq_between hfront hblank] at he' ⊢
  rcases k.cases with haccept | ⟨c, front, back, hk, hfault⟩ | ⟨f, later, hfault⟩
  · cases he.symm.trans (haccept lines hneutral)
  · have hbody := hfault lines hneutral
    have hempty := hfault blank hneutral'
    cases he.symm.trans hbody.check_eq_error
    cases he'.symm.trans hempty.check_eq_error
    refine ⟨rfl, fun before hbefore => .inl ?_⟩
    obtain ⟨_, rfl⟩ := hbefore.unique hempty
    rw [hk] at hfront
    exact ⟨length_lt_of_opener (by simpa [Token.text] using hfront), rfl, hbody⟩
  · have hbody := hfault lines hneutral
    have hempty := hfault blank hneutral'
    cases he.symm.trans hbody.check_eq_error
    cases he'.symm.trans hempty.check_eq_error
    refine ⟨rfl, fun before hbefore => .inr ⟨later, ?_, ?_, ?_⟩⟩
    · obtain ⟨_, rfl⟩ := hbefore.unique hempty
      simp [between, hfront, hblank]
    · simp only [hfront, hlines, hblank, List.count_append, List.count_nil]
      omega
    · simpa [between, hfront, hlines] using hbody

/-- The check comes out of an accepted text as it went in: in code, with exactly the
same brackets open. -/
theorem MayGoOn.run_between (hp : MayGoOn p) (hb : checkChars b = .ok ()) :
    ∃ l opened, run {} (p ++ ['\n']) = .ok ⟨.code, l, opened⟩ ∧
      run {} (between p b []) = .ok ⟨.code, l + b.count '\n' + 1, opened⟩ := by
  obtain ⟨l, opened, hl, hrun⟩ := hp.exists_run
  have happend : between p b [] = (p ++ ['\n']) ++ (b ++ ['\n']) := by simp [between]
  refine ⟨l, opened, hrun, ?_⟩
  rw [happend, run_append, hrun]
  exact run_accepted_line hb hl opened

end Between

end SingleFile.Script.Source
