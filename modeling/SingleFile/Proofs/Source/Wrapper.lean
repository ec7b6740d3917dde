import SingleFile.Proofs.Source.Enclosure

/-!
# Wrapped source

A function is rendered as a header, whole lines of accepted text, and a closing
brace.  The header holds a parameter list; what that list leaves open decides
whether the braces of the wrapper are read as braces at all.

Main results:

- Theorem `intactHeader_iff`: a header ends with its brace open, and nothing
  else, exactly when its parameter list ends in code with nothing open.
- Theorem `checkChars_wrapped`: behind such a header, whole lines of accepted text
  and a closing brace make an accepted source.
- Theorem `endsInCode_or_spansLines`: an accepted source has such a header, or a
  parameter list that leaves a template literal or a block comment open.
-/

namespace SingleFile.Script.Source

/-! ## Staying in code -/

/-- Outside code the character leads to no code: it ends no literal and no
comment. -/
structure IsInner (c : Char) : Prop where
  ofChar?_eq_none : Quote.ofChar? c = none
  ne_newline : c ≠ '\n'
  ne_slash : c ≠ '/'

/-- A character inside code does not lead into it. -/
theorem Reads.isCode_of_isInner {s t : State} {c : Char} (h : Reads s c t) (hc : IsInner c)
    (ht : t.mode.IsCode) : s.mode.IsCode := by
  cases h with
  | quote code _ => exact code.isCode
  | opener code _ => exact code.isCode
  | closer code _ _ => exact code.isCode
  | slash code _ => exact .inl code
  | plain code _ => exact code.isCode
  | beginLineComment slash _ => exact .inr slash
  | beginComment slash _ => exact .inr slash
  | backslash _ _ => rcases ht with ht | ht <;> cases ht
  | endLiteral _ char => simpa [char] using hc.ofChar?_eq_none
  | inLiteral _ _ _ _ => exact ht
  | escaped _ => rcases ht with ht | ht <;> cases ht
  | inLineComment _ _ => exact ht
  | endLineComment _ char => exact absurd char hc.ne_newline
  | inComment _ _ => rcases ht with ht | ht <;> cases ht
  | star _ _ => rcases ht with ht | ht <;> cases ht
  | endComment _ char => exact absurd char hc.ne_slash

/-- Text that ends no literal and no comment is read in code if code follows
it. -/
theorem isCode_of_run {s t : State} {p : List Char} (hp : ∀ c ∈ p, IsInner c)
    (h : run s p = .ok t) (ht : t.mode.IsCode) : s.mode.IsCode := by
  induction p generalizing s with
  | nil =>
      cases h
      exact ht
  | cons c p ih =>
      obtain ⟨u, hstep, hrest⟩ := run_cons_eq_ok_iff.mp h
      have hu := ih (fun d hd => hp d (List.mem_cons_of_mem c hd)) hrest
      exact hstep.isCode_of_isInner (hp c List.mem_cons_self) hu

/-! ## Headers -/

/-- The header of a function: what stands before its parameters, and these. -/
def header (front p : List Char) : List Char :=
  front ++ '(' :: (p ++ ')' :: " \x7b".toList)

/-- The header ends in code with its own brace open and nothing else. -/
def IntactHeader (front p : List Char) : Prop :=
  ∃ line at_, run {} (header front p) = .ok ⟨.code, line, [(.curly, at_)]⟩

/-- The state in which the parameters of a function are read. -/
def atParameters (front : List Char) : State where
  mode := .code
  line := 1 + front.count '\n'
  opened := [(.round, 1 + front.count '\n')]

/-- Plain text and a parenthesis lead to the parameters. -/
theorem run_front {front : List Char} (h : ∀ c ∈ front, IsPlain c) (q : List Char) :
    run {} (front ++ '(' :: q) = run (atParameters front) q := by
  rw [run_append, run_plain h]
  exact run_opener .round _ _ q

/-- The parameters are read above the parenthesis as they are read alone. -/
theorem exists_run_of_atParameters {front p : List Char} (hp : ')' ∉ p) {t : State}
    (h : run (atParameters front) p = .ok t) :
    ∃ s, run {} p = .ok s ∧
      t = (s.shift (front.count '\n')).onTop [(.round, 1 + front.count '\n')] := by
  have hline : 1 ≤ 1 + front.count '\n' := by omega
  obtain ⟨s, hs, ht⟩ := exists_run_of_within hline (b := .round) hp h
  rw [Nat.add_sub_cancel_left] at ht
  exact ⟨s, hs, ht⟩

/-- A text that is read by itself is read alike at the place of the parameters. -/
theorem run_atParameters {p : List Char} {s : State} (h : run {} p = .ok s) (front : List Char) :
    run (atParameters front) p =
      .ok ((s.shift (front.count '\n')).onTop [(.round, 1 + front.count '\n')]) := by
  have hline : 1 ≤ 1 + front.count '\n' := by omega
  have hwithin := run_within h hline [(.round, 1 + front.count '\n')]
  rw [Nat.add_sub_cancel_left] at hwithin
  exact hwithin

/-- In code the brace of a header is opened. -/
theorem run_brace {s : State} (hs : s.mode.IsCode) :
    run s " \x7b".toList = .ok ⟨.code, s.line, (.curly, s.line) :: s.opened⟩ := by
  obtain ⟨mode, line, opened⟩ := s
  rcases hs with hs | hs <;> cases hs <;> rfl

/-- The brace of a header is opened in code only. -/
theorem isCode_of_run_brace {s t : State} (h : run s " \x7b".toList = .ok t)
    (ht : t.mode.IsCode) : s.mode.IsCode := by
  have hinner : ∀ c ∈ " \x7b".toList, IsInner c := by
    intro c hc
    have hc' : c = ' ' ∨ c = '{' := by simpa using hc
    rcases hc' with rfl | rfl <;> exact ⟨rfl, by decide, by decide⟩
  exact isCode_of_run hinner h ht

/-- A header is intact exactly when its parameter list ends in code with nothing
open. -/
theorem intactHeader_iff {front p : List Char} (hfront : ∀ c ∈ front, IsPlain c) (hp : ')' ∉ p) :
    IntactHeader front p ↔ EndsInCode p := by
  unfold IntactHeader header
  rw [run_front hfront]
  constructor
  · rintro ⟨line, at_, hrun⟩
    obtain ⟨u, hu, hrest⟩ := run_append_eq_ok_iff.mp hrun
    obtain ⟨s, hs, rfl⟩ := exists_run_of_atParameters hp hu
    obtain ⟨v, hclose, hbrace⟩ := run_cons_eq_ok_iff.mp hrest
    rw [run_brace (isCode_of_run_brace hbrace (.inl rfl))] at hbrace
    have hv : v.opened = [] := by
      simp only [Except.ok.injEq, State.mk.injEq, List.cons.injEq] at hbrace
      exact hbrace.2.2.2
    obtain ⟨hmode, hopened, _⟩ := hclose.of_opened_eq_nil hv
    exact ⟨s, hs, Mode.isCode_shift.mp hmode, State.opened_shift_eq_nil_iff.mp hopened⟩
  · rintro ⟨s, hs, hmode, hopened⟩
    have hu := run_atParameters hs front
    have hclose := reads_closer hmode hopened (front.count '\n') (1 + front.count '\n') .round
    have hbrace := run_brace (s := ⟨.code, s.line + front.count '\n', []⟩) (.inl rfl)
    exact ⟨_, _, run_append_eq_ok_iff.mpr ⟨_, hu, run_cons_eq_ok_iff.mpr ⟨_, hclose, hbrace⟩⟩⟩

/-! ## Whole lines -/

/-- The lines of a text, each with its line feed. -/
def lines (ls : List (List Char)) : List Char :=
  ls.flatMap (· ++ ['\n'])

/-- Accepted lines move no more than the line. -/
theorem run_lines {ls : List (List Char)} (h : ∀ l ∈ ls, checkChars l = .ok ()) {line : Nat}
    (hline : 1 ≤ line) (opened : List (Bracket × Nat)) :
    ∃ line', run ⟨.code, line, opened⟩ (lines ls) = .ok ⟨.code, line', opened⟩ := by
  induction ls generalizing line with
  | nil => exact ⟨line, rfl⟩
  | cons l ls ih =>
      have hfirst := run_accepted_line (h l List.mem_cons_self) hline opened
      have hnext : 1 ≤ line + l.count '\n' + 1 := by omega
      obtain ⟨line', hrest⟩ := ih (fun m hm => h m (List.mem_cons_of_mem l hm)) hnext
      exact ⟨line', run_append_eq_ok_iff.mpr ⟨_, hfirst, hrest⟩⟩

/-- A function as it is rendered. -/
def wrapped (front p : List Char) (ls : List (List Char)) : List Char :=
  header front p ++ '\n' :: (lines ls ++ ['}'])

/-- Behind an intact header, accepted lines and a closing brace make an accepted
source. -/
theorem checkChars_wrapped {front p : List Char} {ls : List (List Char)}
    (hheader : IntactHeader front p) (hls : ∀ l ∈ ls, checkChars l = .ok ()) :
    checkChars (wrapped front p ls) = .ok () := by
  obtain ⟨line, at_, hrun⟩ := hheader
  have hfeed : Reads ⟨.code, line, [(.curly, at_)]⟩ '\n' ⟨.code, line + 1, [(.curly, at_)]⟩ :=
    step_eq_ok_iff.mp rfl
  have hnext : 1 ≤ line + 1 := by omega
  obtain ⟨line', hlines⟩ := run_lines hls hnext [(.curly, at_)]
  have hclose : Reads ⟨.code, line', [(.curly, at_)]⟩ '}' ⟨.code, line', []⟩ :=
    .closer (b := .curly) (.inl rfl) rfl rfl
  have hend := run_append_eq_ok_iff.mpr ⟨_, hlines, run_singleton_eq_ok_iff.mpr hclose⟩
  refine (checkChars_eq_ok_iff _).mpr ⟨⟨.code, line', []⟩, ?_, trivial, rfl⟩
  exact run_append_eq_ok_iff.mpr ⟨_, hrun, run_cons_eq_ok_iff.mpr ⟨_, hfeed, hend⟩⟩

/-! ## Broken headers -/

/-- The mode goes on across lines: a template literal or a block comment. -/
def Mode.SpansLines : Mode → Prop
  | .literal .backtick _ | .escape .backtick _ | .comment _ | .commentStar _ => True
  | _ => False

/-- The mode is in a string, which ends on its line. -/
def Mode.InString (m : Mode) : Prop :=
  ∃ q line, q ≠ .backtick ∧ (m = .literal q line ∨ m = .escape q line)

/-- A mode is one of code, of a line comment, of a text in quotes, or one that may span
lines. -/
theorem Mode.cases_isCode (m : Mode) :
    m.IsCode ∨ m = .lineComment ∨ m.InString ∨ m.SpansLines := by
  cases m with
  | code => exact .inl (.inl rfl)
  | slash => exact .inl (.inr rfl)
  | lineComment => exact .inr (.inl rfl)
  | literal q line =>
      by_cases hq : q = .backtick
      · subst hq
        exact .inr (.inr (.inr trivial))
      · exact .inr (.inr (.inl ⟨q, line, hq, .inl rfl⟩))
  | escape q line =>
      by_cases hq : q = .backtick
      · subst hq
        exact .inr (.inr (.inr trivial))
      · exact .inr (.inr (.inl ⟨q, line, hq, .inr rfl⟩))
  | comment line => exact .inr (.inr (.inr trivial))
  | commentStar line => exact .inr (.inr (.inr trivial))

/-- A string does not go on after the line of a header. -/
theorem not_run_of_inString {s t : State} (hs : s.mode.InString) (q : List Char) :
    run s (')' :: (" \x7b".toList ++ '\n' :: q)) ≠ .ok t := by
  obtain ⟨mode, line, opened⟩ := s
  obtain ⟨quote, start, hquote, hmode⟩ := hs
  cases quote with
  | backtick => exact absurd rfl hquote
  | single => rcases hmode with rfl | rfl <;> exact nofun
  | double => rcases hmode with rfl | rfl <;> exact nofun

/-- Behind whole lines the closing brace of a function leaves a parenthesis open
that was open before them. -/
theorem not_run_of_round {s t : State} {at_ : Nat} {ls : List (List Char)}
    (hls : ∀ l ∈ ls, checkChars l = .ok ()) (hmode : s.mode = .code) (hline : 1 ≤ s.line)
    (h : run (s.onTop [(.round, at_)]) (lines ls ++ ['}']) = .ok t) : t.opened ≠ [] := by
  intro ht
  obtain ⟨mode, line, opened⟩ := s
  simp only at hmode hline
  subst hmode
  obtain ⟨line', hlines⟩ := run_lines hls hline (opened ++ [(.round, at_)])
  obtain ⟨u, hu, hlast⟩ := run_append_eq_ok_iff.mp h
  have hsame : u = State.onTop ⟨.code, line', opened⟩ [(.round, at_)] :=
    Except.ok.inj (hu.symm.trans hlines)
  rw [hsame] at hlast
  have hcloser := ((run_singleton_eq_ok_iff.mp hlast).of_opened_eq_nil ht).2.2
  cases hcloser

/-- A closing parenthesis in code is followed by code. -/
theorem Reads.mode_of_closer {s t : State} {b : Bracket} (h : Reads s b.closer t)
    (hs : s.mode.IsCode) : t.mode = .code := by
  have hstep := step_eq_ok_iff.mpr h
  rw [step_of_readsCode (hs.readsCloser b), readCode_closer] at hstep
  obtain ⟨line, rest, _, rfl⟩ := close_eq_ok hstep
  rfl

/-- Parameters that end in code with a bracket open leave the parenthesis before
them open behind the header. -/
theorem exists_run_of_isCode {s t : State} {at_ : Nat} {q : List Char} (hs : s.mode.IsCode)
    (hopen : s.opened ≠ [])
    (h : run (s.onTop [(.round, at_)]) (')' :: (" \x7b".toList ++ '\n' :: q)) = .ok t) :
    ∃ x : State, x.mode = .code ∧ 1 ≤ x.line ∧ run (x.onTop [(.round, at_)]) q = .ok t := by
  obtain ⟨v, hclose, hrest⟩ := run_cons_eq_ok_iff.mp h
  obtain ⟨v', hv', rfl⟩ := hclose.of_onTop fun hnil => absurd hnil hopen
  have hmode : v'.mode = .code := Reads.mode_of_closer (b := .round) hv' hs
  obtain ⟨w, hbrace, hrest⟩ := run_append_eq_ok_iff.mp hrest
  rw [run_brace (s := v'.onTop _) (.inl hmode)] at hbrace
  cases hbrace
  exact ⟨⟨.code, v'.line + 1, (.curly, v'.line) :: v'.opened⟩, rfl, by simp, hrest⟩

/-- Parameters that end in a line comment leave the parenthesis before them open
behind the line of the header. -/
theorem exists_run_of_lineComment {s t : State} {at_ : Nat} {q : List Char}
    (hs : s.mode = .lineComment)
    (h : run (s.onTop [(.round, at_)]) (')' :: (" \x7b".toList ++ '\n' :: q)) = .ok t) :
    ∃ x : State, x.mode = .code ∧ 1 ≤ x.line ∧ run (x.onTop [(.round, at_)]) q = .ok t := by
  obtain ⟨mode, line, opened⟩ := s
  cases hs
  exact ⟨⟨.code, line + 1, opened⟩, rfl, by simp, h⟩

/-- The parameters of an accepted source end in code with nothing open, or they leave a
template literal or a block comment open. In code above the round bracket the closing brace
would be unexpected. -/
theorem endsInCode_or_spansLines {front p : List Char} {ls : List (List Char)}
    (hfront : ∀ c ∈ front, IsPlain c) (hp : ')' ∉ p) (hls : ∀ l ∈ ls, checkChars l = .ok ())
    (h : checkChars (wrapped front p ls) = .ok ()) :
    EndsInCode p ∨ ∃ s, run {} p = .ok s ∧ s.mode.SpansLines := by
  have hsplit : wrapped front p ls =
      front ++ '(' :: (p ++ ')' :: (" \x7b".toList ++ '\n' :: (lines ls ++ ['}']))) := by
    simp [wrapped, header]
  obtain ⟨t, hrun, _, ht⟩ := (checkChars_eq_ok_iff _).mp h
  rw [hsplit, run_front hfront] at hrun
  obtain ⟨u, hu, hrest⟩ := run_append_eq_ok_iff.mp hrun
  obtain ⟨s, hs, rfl⟩ := exists_run_of_atParameters hp hu
  have hround : ∀ x : State, x.mode = .code → 1 ≤ x.line →
      run (x.onTop [(.round, 1 + front.count '\n')]) (lines ls ++ ['}']) = .ok t → False :=
    fun x hmode hline hx => not_run_of_round hls hmode hline hx ht
  rcases s.mode.cases_isCode with hcode | hcomment | hstring | hspan
  · by_cases hopened : s.opened = []
    · exact .inl ⟨s, hs, hcode, hopened⟩
    · have hopen : (s.shift (front.count '\n')).opened ≠ [] :=
        fun hnil => hopened (State.opened_shift_eq_nil_iff.mp hnil)
      obtain ⟨x, hmode, hline, hx⟩ :=
        exists_run_of_isCode (Mode.isCode_shift.mpr hcode) hopen hrest
      exact (hround x hmode hline hx).elim
  · have hmode : (s.shift (front.count '\n')).mode = .lineComment := by
      simp [State.shift, hcomment, Mode.shift]
    obtain ⟨x, hmode, hline, hx⟩ := exists_run_of_lineComment hmode hrest
    exact (hround x hmode hline hx).elim
  · obtain ⟨quote, start, hquote, hmode⟩ := hstring
    have hshift : ((s.shift (front.count '\n')).onTop
        [(.round, 1 + front.count '\n')]).mode.InString := by
      refine ⟨quote, start + front.count '\n', hquote, ?_⟩
      rcases hmode with hmode | hmode <;> simp [State.onTop, State.shift, hmode, Mode.shift]
    exact absurd hrest (not_run_of_inString hshift _)
  · exact .inr ⟨s, hs, hspan⟩

/-- Between parentheses, a text that leaves a template literal or a block comment
open is rejected for it. -/
theorem checkChars_of_spansLines {p : List Char} {s : State} (h : run {} p = .ok s)
    (hs : s.mode.SpansLines) :
    ∃ line, checkChars ('(' :: (p ++ [')'])) = .error ⟨.unterminatedTemplate, line⟩ ∨
      checkChars ('(' :: (p ++ [')'])) = .error ⟨.unterminatedComment, line⟩ := by
  have hwithin := run_within h (Nat.le_refl 1) [(.round, 1)]
  have hrun : run {} ('(' :: (p ++ [')'])) =
      run ((s.shift (1 - 1)).onTop [(.round, 1)]) [')'] := by
    have hopen : run {} ('(' :: (p ++ [')'])) = run ⟨.code, 1, [(.round, 1)]⟩ (p ++ [')']) := rfl
    rw [hopen, run_append, hwithin]
  obtain ⟨mode, line, opened⟩ := s
  unfold checkChars
  rw [hrun]
  cases mode with
  | literal q start =>
      cases q with
      | backtick => exact ⟨_, .inl rfl⟩
      | _ => exact absurd hs id
  | escape q start =>
      cases q with
      | backtick => exact ⟨_, .inl rfl⟩
      | _ => exact absurd hs id
  | comment start => exact ⟨_, .inr rfl⟩
  | commentStar start => exact ⟨_, .inr rfl⟩
  | _ => exact absurd hs id

end SingleFile.Script.Source
