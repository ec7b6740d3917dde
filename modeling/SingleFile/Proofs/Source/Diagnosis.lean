import SingleFile.Proofs.Source.Cut
import SingleFile.Proofs.Source.Enclosure
import SingleFile.Proofs.Source.Faults

/-!
# The diagnosis of rejected source

The source check reports a fault and a line.  Both are those of the one place where
the text stops being well formed: the check reads the tokens before that place, keeps
the brackets that they leave open, and finds out about the piece behind them.

Main results:

- Theorem `checkChars_eq_error_iff`: the faults that are reported, and their lines.
- Theorem `FaultAt.unique`: a text has one fault, in one place.
- Theorem `check_diagnosis`: what the report of a fault tells about other texts.
-/

namespace SingleFile.Script.Source

/-! ## Checking from a state -/

/-- The check of a text that is read from a state. -/
def checkFrom (s : State) (p : List Char) : Except Error Unit :=
  match run s p with
  | .ok t => t.finish
  | .error e => .error e

/-- A check goes on from the state that a first part leaves. -/
theorem checkFrom_append {s t : State} {p : List Char} (h : run s p = .ok t) (q : List Char) :
    checkFrom s (p ++ q) = checkFrom t q := by
  simp only [checkFrom, run_append, h]

theorem Reads.checkFrom_cons {s t : State} {c : Char} (h : Reads s c t) (p : List Char) :
    checkFrom s (c :: p) = checkFrom t p := by
  simp only [checkFrom, run_cons, step_eq_ok_iff.mpr h]

/-! ## Tokens -/

/-- What stands between the quotes of a literal is read within it. -/
theorem run_interior {q : Quote} {w : List Char} (h : Interior q w) (start line : Nat)
    (opened : List (Bracket × Nat)) :
    ∃ l, run ⟨.literal q start, line, opened⟩ w = .ok ⟨.literal q start, l, opened⟩ := by
  induction h generalizing line with
  | nil => exact ⟨line, rfl⟩
  | escaped c _ ih =>
      obtain ⟨l, hl⟩ := ih _
      exact ⟨l, run_cons_eq_ok_iff.mpr ⟨_, .backslash rfl rfl,
        run_cons_eq_ok_iff.mpr ⟨_, .escaped rfl, hl⟩⟩⟩
  | plain backslash quote feed _ ih =>
      obtain ⟨l, hl⟩ := ih _
      exact ⟨l, run_cons_eq_ok_iff.mpr ⟨_, .inLiteral rfl backslash quote feed, hl⟩⟩

/-- A block comment is read up to its end. -/
theorem run_blockComment {mode : Mode} {start : Nat} {w : List Char} (h : EndsFirst w)
    (hmode : mode = .comment start ∨ mode = .commentStar start ∧ ∀ r, w ≠ '/' :: r) (line : Nat)
    (opened : List (Bracket × Nat)) :
    ∃ l, run ⟨mode, line, opened⟩ (w ++ ['*', '/']) = .ok ⟨.code, l, opened⟩ := by
  induction w generalizing mode line with
  | nil =>
      have hstar : mode = .comment start ∨ mode = .commentStar start := hmode.imp_right And.left
      exact ⟨line, run_cons_eq_ok_iff.mpr ⟨_, .star hstar rfl,
        run_singleton_eq_ok_iff.mpr (.endComment rfl rfl)⟩⟩
  | cons c w ih =>
      by_cases hc : c = '*'
      · subst hc
        have hstar : mode = .comment start ∨ mode = .commentStar start := hmode.imp_right And.left
        obtain ⟨hw, hslash⟩ := endsFirst_star_iff.mp h
        obtain ⟨l, hl⟩ := ih hw (.inr ⟨rfl, hslash⟩) _
        exact ⟨l, run_cons_eq_ok_iff.mpr ⟨_, .star hstar rfl, hl⟩⟩
      · have hslash : mode = .comment start ∨ mode = .commentStar start ∧ c ≠ '/' :=
          hmode.imp_right fun h => ⟨h.1, fun hslash => h.2 w (by rw [hslash])⟩
        obtain ⟨l, hl⟩ := ih h.tail (.inl rfl) _
        exact ⟨l, run_cons_eq_ok_iff.mpr ⟨_, .inComment hslash hc, hl⟩⟩

section Tokens

variable {line start : Nat} {opened : List (Bracket × Nat)}

/-- A slash that begins no comment is of no account. -/
theorem checkFrom_slash {r : List Char} (h : ¬ BeginsComment ('/' :: r)) :
    checkFrom ⟨.slash, line, opened⟩ r = checkFrom ⟨.code, line, opened⟩ r := by
  cases r with
  | nil => rfl
  | cons c r =>
      simp only [beginsComment_slash_iff, List.cons.injEq, not_exists, not_and, not_or] at h
      obtain ⟨hslash, hstar⟩ := h c r ⟨rfl, rfl⟩
      have hstep : State.step ⟨.slash, line, opened⟩ c = State.step ⟨.code, line, opened⟩ c := by
        rw [step_of_readsCode (.inr ⟨rfl, hslash, hstar⟩), step_of_readsCode (.inl rfl)]
        rfl
      simp only [checkFrom, run_cons, hstep]

/-- A token that is no bracket moves no more than the line. -/
theorem checkFrom_token {t : Token} {r : List Char} (ht : t.Precedes r)
    (hnone : t.bracket? = none) :
    checkFrom ⟨.code, line, opened⟩ (t.text ++ r) =
      checkFrom ⟨.code, line + t.text.count '\n', opened⟩ r := by
  have hrun : (∃ l, run ⟨.code, line, opened⟩ t.text = .ok ⟨.code, l, opened⟩) →
      checkFrom ⟨.code, line, opened⟩ (t.text ++ r) =
        checkFrom ⟨.code, line + t.text.count '\n', opened⟩ r := by
    rintro ⟨l, hl⟩
    have hline : l = line + t.text.count '\n' := run_line hl
    rw [checkFrom_append hl, hline]
  cases t with
  | literal q w =>
      obtain ⟨l, hl⟩ := run_interior ht line line opened
      exact hrun ⟨l, run_cons_eq_ok_iff.mpr ⟨_, .quote (.inl rfl) rfl,
        run_append_eq_ok_iff.mpr ⟨_, hl, run_singleton_eq_ok_iff.mpr (.endLiteral rfl rfl)⟩⟩⟩
  | lineComment w =>
      have hresting : Mode.IsResting .code := trivial
      have hslashes := run_slashes ht hresting line opened
      exact hrun ⟨line + 1, run_append_eq_ok_iff.mpr ⟨_, hslashes,
        run_singleton_eq_ok_iff.mpr (.endLineComment rfl rfl)⟩⟩
  | blockComment w =>
      obtain ⟨l, hl⟩ := run_blockComment ht (.inl rfl) line opened
      exact hrun ⟨l, run_cons_eq_ok_iff.mpr ⟨_, .slash rfl rfl,
        run_cons_eq_ok_iff.mpr ⟨_, .beginComment rfl rfl, hl⟩⟩⟩
  | single c =>
      by_cases hc : c = '/'
      · subst hc
        exact (Reads.slash rfl rfl).checkFrom_cons r |>.trans (checkFrom_slash ht.2)
      · have hbracket : isBracket c = false := by simpa [Token.bracket?] using hnone
        simp only [isBracket, Bool.or_eq_false_iff, Option.isSome_eq_false_iff,
          Option.isNone_iff_eq_none] at hbracket
        have hplain : IsPlain c := ⟨ht.1, hbracket.1, hbracket.2, hc⟩
        exact hrun ⟨_, run_plain (by simpa [Token.text] using hplain) line opened⟩

/-- An opening bracket is checked by adding it to the open ones, with its line. -/
theorem checkFrom_opener (b : Bracket) (r : List Char) :
    checkFrom ⟨.code, line, opened⟩ (b.opener :: r) =
      checkFrom ⟨.code, line, (b, line) :: opened⟩ r :=
  (Reads.opener (.inl rfl) rfl).checkFrom_cons r

/-- A closing bracket that fits is checked by removing its partner. -/
theorem checkFrom_closer (b : Bracket) (r : List Char) :
    checkFrom ⟨.code, line, (b, start) :: opened⟩ (b.closer :: r) =
      checkFrom ⟨.code, line, opened⟩ r :=
  (Reads.closer (.inl rfl) rfl rfl).checkFrom_cons r

/-- A token is read to the brackets it leaves open, and to the line behind it. -/
theorem exists_checkFrom_token {t : Token} {now : List Bracket} (line : Nat)
    (h : Leaves (opened.map Prod.fst) (brackets [t]) now) :
    ∃ later : List (Bracket × Nat), later.map Prod.fst = now ∧ ∀ r, t.Precedes r →
      checkFrom ⟨.code, line, opened⟩ (t.text ++ r) =
        checkFrom ⟨.code, line + t.text.count '\n', later⟩ r := by
  rcases t.bracket?_cases with hnone | ⟨b, rfl⟩ | ⟨b, rfl⟩
  · rw [brackets_cons_of_none hnone] at h
    exact ⟨opened, leaves_nil_iff.mp h, fun r ht => checkFrom_token ht hnone⟩
  · rw [brackets_opener, leaves_opener_iff] at h
    have hcount : ([b.opener] : List Char).count '\n' = 0 := by cases b <;> rfl
    refine ⟨(b, line) :: opened, leaves_nil_iff.mp h, fun r _ => ?_⟩
    rw [Token.text, hcount]
    exact checkFrom_opener b r
  · rw [brackets_closer, leaves_closer_iff] at h
    obtain ⟨outer, houter, hnow⟩ := h
    obtain ⟨⟨_, start⟩, below, rfl, rfl, rfl⟩ := List.map_eq_cons_iff.mp houter
    have hcount : ∀ b : Bracket, ([b.closer] : List Char).count '\n' = 0 := fun b => by
      cases b <;> rfl
    refine ⟨below, leaves_nil_iff.mp hnow, fun r _ => ?_⟩
    rw [Token.text, hcount]
    exact checkFrom_closer _ r

end Tokens

/-- Tokens are read to the brackets they leave open, and to the line behind them. -/
theorem checkFrom_written {ts : List Token} {now : List Bracket} (line : Nat)
    (opened : List (Bracket × Nat)) (h : Leaves (opened.map Prod.fst) (brackets ts) now) :
    ∃ later : List (Bracket × Nat), later.map Prod.fst = now ∧ ∀ rest, Precede ts rest →
      checkFrom ⟨.code, line, opened⟩ (written ts ++ rest) =
        checkFrom ⟨.code, line + (written ts).count '\n', later⟩ rest := by
  induction ts generalizing line opened with
  | nil => exact ⟨opened, leaves_nil_iff.mp h, fun rest _ => rfl⟩
  | cons t ts ih =>
      rw [brackets_cons, leaves_append_iff] at h
      obtain ⟨mid, ht, hts⟩ := h
      obtain ⟨behind, rfl, hfirst⟩ := exists_checkFrom_token line ht
      obtain ⟨later, hlater, hrest⟩ := ih (line + t.text.count '\n') behind hts
      refine ⟨later, hlater, fun rest hprecede => ?_⟩
      rw [written_cons, List.append_assoc, hfirst _ hprecede.1, hrest rest hprecede.2,
        List.count_append, Nat.add_assoc]

/-! ## Pieces that do not end -/

section Unended

variable {line start : Nat} {opened : List (Bracket × Nat)}

/-- A literal that does not end is reported where it began. -/
theorem checkFrom_unendedLiteral {q : Quote} {s : List Char} :
    ((∀ w r, s = w ++ q.char :: r → ¬ Interior q w) →
      checkFrom ⟨.literal q start, line, opened⟩ s = .error ⟨q.unterminated, start⟩) ∧
    ((∀ c w r, s = c :: (w ++ q.char :: r) → ¬ Interior q w) →
      checkFrom ⟨.escape q start, line, opened⟩ s = .error ⟨q.unterminated, start⟩) := by
  induction s generalizing line with
  | nil => exact ⟨fun _ => rfl, fun _ => rfl⟩
  | cons c s ih =>
      constructor
      · intro never
        by_cases hbackslash : c = '\\'
        · rw [(Reads.backslash rfl hbackslash).checkFrom_cons]
          refine ih.2 fun d w r hs hw => never (c :: d :: w) r (by rw [hs]; rfl) ?_
          rw [hbackslash]
          exact .escaped d hw
        · have hquote : c ≠ q.char := fun hc => never [] s (by rw [hc]; rfl) .nil
          by_cases hfeed : c = '\n' → q = .backtick
          · rw [(Reads.inLiteral rfl hbackslash hquote hfeed).checkFrom_cons]
            refine ih.1 fun w r hs hw => never (c :: w) r (by rw [hs]; rfl) ?_
            exact .plain hbackslash hquote hfeed hw
          · obtain ⟨rfl, hq⟩ : c = '\n' ∧ q ≠ .backtick := by simpa using hfeed
            simp [checkFrom, run_cons, State.step, hquote, hq]
      · intro never
        rw [(Reads.escaped rfl).checkFrom_cons]
        exact ih.1 fun w r hs => never c w r (by rw [hs])

/-- A block comment that does not end is reported where it began. -/
theorem checkFrom_unendedComment {mode : Mode} {s : List Char}
    (h : mode = .comment start ∧ ¬ ['*', '/'] <:+: s ∨
      mode = .commentStar start ∧ ¬ ['*', '/'] <:+: '*' :: s) :
    checkFrom ⟨mode, line, opened⟩ s = .error ⟨.unterminatedComment, start⟩ := by
  induction s generalizing mode line with
  | nil => rcases h with ⟨rfl, _⟩ | ⟨rfl, _⟩ <;> rfl
  | cons c s ih =>
      have hlater : ¬ ['*', '/'] <:+: c :: s := by
        rcases h with ⟨_, h⟩ | ⟨_, h⟩
        · exact h
        · exact fun hs => h (List.infix_cons_iff.mpr (.inr hs))
      by_cases hc : c = '*'
      · subst hc
        have hstar : mode = .comment start ∨ mode = .commentStar start :=
          h.imp And.left And.left
        rw [(Reads.star hstar rfl).checkFrom_cons]
        exact ih (.inr ⟨rfl, hlater⟩)
      · have hslash : mode = .comment start ∨ mode = .commentStar start ∧ c ≠ '/' := by
          rcases h with ⟨hmode, _⟩ | ⟨hmode, h⟩
          · exact .inl hmode
          · refine .inr ⟨hmode, ?_⟩
            rintro rfl
            exact h ⟨[], s, rfl⟩
        rw [(Reads.inComment hslash hc).checkFrom_cons]
        exact ih (.inl ⟨rfl, fun hs => hlater (List.infix_cons_iff.mpr (.inr hs))⟩)

/-- A piece that does not end is reported at the line that it begins in. -/
theorem checkFrom_of_unended {s : List Char} {f : Fault} (h : Unended s f) :
    checkFrom ⟨.code, line, opened⟩ s = .error ⟨f, line⟩ := by
  cases h with
  | literal never =>
      rw [(Reads.quote (.inl rfl) rfl).checkFrom_cons]
      exact checkFrom_unendedLiteral.1 never
  | comment never =>
      rw [(Reads.slash rfl rfl).checkFrom_cons, (Reads.beginComment rfl rfl).checkFrom_cons]
      exact checkFrom_unendedComment (.inl ⟨rfl, never⟩)

end Unended

/-! ## Faults and their lines -/

/-- A text that closes the innermost of the open brackets leaves the others to be
reported. -/
theorem checkFrom_of_closes {s : List Char} {ts : List Token} {inner : List (Bracket × Nat)}
    (hs : Splits s ts) (hclose : Closes (inner.map Prod.fst) (brackets ts)) (line : Nat)
    (below : List (Bracket × Nat)) :
    checkFrom ⟨.code, line, inner ++ below⟩ s = State.finish ⟨.code, line, below⟩ := by
  have hcompletes : State.Completes ⟨.code, line, inner⟩ s := ⟨ts, hs, hclose⟩
  obtain ⟨t, hrun, hmode, ht⟩ := (completes_iff_run _ _).mp hcompletes
  have hwithin : run ⟨.code, line, inner ++ below⟩ s = .ok (t.onTop below) := run_onTop hrun below
  obtain ⟨mode, l, opened⟩ := t
  cases ht
  simp only [checkFrom, hwithin]
  cases mode <;> first | rfl | exact absurd hmode id

/-- Text that closes what it opens, and some of the open brackets, leaves the outer ones to
be reported. -/
theorem ClosesTo.checkFrom {s : List Char} {outer : List Bracket}
    (opened : List (Bracket × Nat)) (h : ClosesTo (opened.map Prod.fst) s outer) (line : Nat) :
    ∃ inner below, opened = inner ++ below ∧
      checkFrom ⟨.code, line, opened⟩ s = State.finish ⟨.code, line, below⟩ := by
  obtain ⟨ts, kinds, hs, hopened, hclose⟩ := h
  obtain ⟨inner, below, rfl, rfl, _⟩ := List.map_eq_append_iff.mp hopened
  exact ⟨inner, below, rfl, checkFrom_of_closes hs hclose line below⟩

/-- A fault at the beginning of a text is reported with the current line. -/
theorem Fails.checkFrom {opened : List (Bracket × Nat)} {s : List Char} {f : Fault}
    (h : Fails (opened.map Prod.fst) s f) (line : Nat) :
    checkFrom ⟨.code, line, opened⟩ s = .error ⟨f, line⟩ := by
  cases h with
  | unended piece => exact checkFrom_of_unended piece
  | @unexpected b s top =>
      have hclose : State.close ⟨.code, line, opened⟩ b = .error ⟨.unexpected b, line⟩ := by
        cases opened with
        | nil => rfl
        | cons first opened =>
            have hne : first.1 ≠ b := fun hb => top _ (by rw [List.map_cons, hb])
            simp [State.close, hne]
      have hcode : Mode.ReadsCode .code b.closer := .inl rfl
      simp only [Source.checkFrom, run_cons]
      rw [step_of_readsCode hcode, readCode_closer, hclose]
  | @missingCloser b s ts rest nested =>
      have hclose : Closes (List.map Prod.fst ([] : List (Bracket × Nat))) (brackets ts) :=
        wellNested_iff_closes.mp nested
      rw [checkFrom_opener]
      exact checkFrom_of_closes rest hclose line ((b, line) :: opened)

/-- A fault is reported with the line of its piece. -/
theorem FaultAbove.checkFrom {s before : List Char} {f : Fault} (opened : List (Bracket × Nat))
    (h : FaultAbove (opened.map Prod.fst) s f before) (line : Nat) :
    checkFrom ⟨.code, line, opened⟩ s = .error ⟨f, line + before.count '\n'⟩ := by
  obtain ⟨ts, rest, now, rfl, rfl, hts, hleaves, hfails⟩ := h
  obtain ⟨later, rfl, hcheck⟩ := checkFrom_written line opened hleaves
  rw [hcheck rest hts]
  exact hfails.checkFrom _

/-- A fault is reported at the line that it stands in. -/
theorem FaultAt.check_eq_error {source before : List Char} {f : Fault}
    (h : FaultAt source f before) :
    checkChars source = .error ⟨f, 1 + before.count '\n'⟩ :=
  FaultAbove.checkFrom [] (faultAt_iff_above.mp h) 1

/-- A source that is rejected has a fault. -/
theorem exists_faultAt {source : List Char} {e : Error} (h : checkChars source = .error e) :
    ∃ f before, FaultAt source f before := by
  rcases settled [] source with ⟨outer, hclose⟩ | ⟨f, before, hfault⟩
  · obtain ⟨inner, below, hopened, hcheck⟩ := ClosesTo.checkFrom [] hclose 1
    obtain ⟨_, rfl⟩ := List.append_eq_nil_iff.mp hopened.symm
    cases h.symm.trans hcheck
  · exact ⟨f, before, faultAt_iff_above.mpr hfault⟩

/-- The faults that are reported are those of the source, and the line counts the
line feeds before the piece that is at fault. -/
theorem checkChars_eq_error_iff {source : List Char} {e : Error} :
    checkChars source = .error e ↔
      ∃ before, FaultAt source e.fault before ∧ e.line = 1 + before.count '\n' := by
  constructor
  · intro h
    obtain ⟨f, before, hfault⟩ := exists_faultAt h
    cases h.symm.trans hfault.check_eq_error
    exact ⟨before, hfault, rfl⟩
  · rintro ⟨before, hfault, hline⟩
    rw [hfault.check_eq_error, ← hline]

/-! ## One fault in one place -/

/-- A text that closes brackets has no fault. Read from line one with the open brackets on
line zero, only a fault has a later line. -/
theorem ClosesTo.not_faultAbove {opened outer : List Bracket} {s before : List Char} {f : Fault}
    (h : ClosesTo opened s outer) : ¬ FaultAbove opened s f before := by
  intro hfault
  let placed : List (Bracket × Nat) := opened.map fun b => (b, 0)
  have hplaced : placed.map Prod.fst = opened := by simp [placed, Function.comp_def]
  rw [← hplaced] at h hfault
  have herror := hfault.checkFrom placed 1
  obtain ⟨inner, below, hopened, hcheck⟩ := h.checkFrom placed 1
  rw [hcheck] at herror
  cases below with
  | nil => cases herror
  | cons top below =>
      obtain ⟨b, start⟩ := top
      have hmem : (b, start) ∈ placed := by simp [hopened]
      have hstart : start = 0 := by
        obtain ⟨_, _, heq⟩ := List.mem_map.mp hmem
        exact (Prod.mk.inj heq).2.symm
      have hline : start = 1 + before.count '\n' := by
        simpa using congrArg Error.line (Except.error.inj herror)
      omega

/-- Where a text fails at once, no token is split off before another fault. -/
theorem Fails.not_faultAbove_cons {now later : List Bracket} {t : Token} {r before : List Char}
    {f f' : Fault} (h : Fails now (t.text ++ r) f) (ht : t.Precedes r)
    (hopen : Leaves now (brackets [t]) later) : ¬ FaultAbove later r f' before := by
  intro hfault
  generalize hs : t.text ++ r = s at h
  cases h with
  | unended piece => exact piece.not_precedes ht hs.symm
  | @unexpected b s top =>
      obtain ⟨rfl, rfl⟩ := ht.eq_single (b.precedes_closer s) hs
      rw [brackets_closer] at hopen
      obtain ⟨outer, houter, _⟩ := leaves_closer_iff.mp hopen
      exact top outer houter
  | @missingCloser b s ts rest nested =>
      obtain ⟨rfl, rfl⟩ := ht.eq_single (b.precedes_opener s) hs
      rw [brackets_opener] at hopen
      have hlater : b :: now = later := leaves_nil_iff.mp (leaves_opener_iff.mp hopen)
      have hclose : ClosesTo (b :: now) r (b :: now) :=
        ⟨ts, [], rest, rfl, wellNested_iff_closes.mp nested⟩
      rw [← hlater] at hfault
      exact hclose.not_faultAbove hfault

/-- No tokens stand between two places where a text fails. -/
theorem eq_nil_of_fails {ts more : List Token} {now later : List Bracket} {rest : List Char}
    {f f' : Fault} (hnow : Leaves [] (brackets ts) now)
    (hfails : Fails now (written more ++ rest) f) (hmore : Precede more rest)
    (hlater : Leaves [] (brackets (ts ++ more)) later) (hfails' : Fails later rest f') :
    more = [] := by
  cases more with
  | nil => rfl
  | cons t more =>
      rw [brackets_append, leaves_append_iff] at hlater
      obtain ⟨now', hnow', hrest⟩ := hlater
      cases hnow.unique hnow'
      rw [brackets_cons, leaves_append_iff] at hrest
      obtain ⟨mid, ht, hmid⟩ := hrest
      have hfault : FaultAbove mid (written more ++ rest) f' (written more) :=
        ⟨more, rest, later, rfl, rfl, hmore.2, hmid, hfails'⟩
      rw [written_cons, List.append_assoc] at hfails
      exact absurd hfault (hfails.not_faultAbove_cons hmore.1 ht)

/-- A text has one fault, in one place. -/
theorem FaultAt.unique {source before before' : List Char} {f f' : Fault}
    (h : FaultAt source f before) (h' : FaultAt source f' before') : f = f' ∧ before = before' := by
  refine ⟨?_, ?_⟩
  · have herror := h.check_eq_error.symm.trans h'.check_eq_error
    exact congrArg Error.fault (Except.error.inj herror)
  · obtain ⟨ts, rest, now, rfl, hs, hts, hnow, hfails⟩ := faultAt_iff_above.mp h
    obtain ⟨us, rest', now', rfl, hs', hus, hnow', hfails'⟩ := faultAt_iff_above.mp h'
    have hsame : written ts ++ rest = written us ++ rest' := hs.symm.trans hs'
    rcases hts.comparable hus hsame with ⟨more, rfl⟩ | ⟨more, rfl⟩
    · rw [written_append, List.append_assoc, List.append_cancel_left_eq] at hsame
      rw [hsame] at hfails
      have hmore := eq_nil_of_fails hnow hfails (precede_append_iff.mp hus).2 hnow' hfails'
      rw [hmore, List.append_nil]
    · rw [written_append, List.append_assoc, List.append_cancel_left_eq] at hsame
      rw [← hsame] at hfails'
      have hmore := eq_nil_of_fails hnow' hfails' (precede_append_iff.mp hts).2 hnow hfails
      rw [hmore, List.append_nil]

/-! ## What the report tells -/

/-- At an unexpected bracket stands that closing bracket. -/
theorem FaultAt.closer_prefix {source before : List Char} {b : Bracket}
    (h : FaultAt source (.unexpected b) before) : before ++ [b.closer] <+: source := by
  obtain ⟨_, _, _, _, rfl, _, _, hfails⟩ := h
  obtain ⟨rest, rfl, _⟩ := hfails.eq_closer
  exact ⟨rest, List.append_assoc _ _ _⟩

/-- At a bracket that misses its partner stands that opening bracket. -/
theorem FaultAt.opener_prefix {source before : List Char} {b : Bracket}
    (h : FaultAt source (.missingCloser b) before) : before ++ [b.opener] <+: source := by
  obtain ⟨_, _, _, _, rfl, _, _, hfails⟩ := h
  obtain ⟨rest, _, rfl, _⟩ := hfails.eq_opener
  exact ⟨rest, List.append_assoc _ _ _⟩

/-- A closing bracket that is unexpected is so whatever follows it. -/
theorem FaultAt.unexpected_append {source before : List Char} {b : Bracket}
    (h : FaultAt source (.unexpected b) before) (later : List Char) :
    FaultAt (before ++ b.closer :: later) (.unexpected b) before := by
  obtain ⟨ts, rest, opened, rfl, rfl, hts, hopen, hfails⟩ := h
  obtain ⟨rest, rfl, htop⟩ := hfails.eq_closer
  exact ⟨ts, _, opened, rfl, rfl, hts.replace later, hopen, .unexpected htop⟩

/-- The partners of the open brackets, innermost first, close them. -/
theorem checkFrom_closers (line : Nat) (opened : List (Bracket × Nat)) :
    checkFrom ⟨.code, line, opened⟩ ((opened.map Prod.fst).map Bracket.closer) = .ok () := by
  induction opened with
  | nil => rfl
  | cons top opened ih => exact (checkFrom_closer top.1 _).trans ih

/-- A source is completed by the partners of the brackets that it leaves open, behind a
line feed. -/
theorem LeavesOpen.checkChars_append {source : List Char} {opened : List Bracket}
    (h : LeavesOpen source opened) :
    checkChars (source ++ '\n' :: opened.map Bracket.closer) = .ok () := by
  obtain ⟨ts, hs, hopen⟩ := h
  obtain ⟨us, hus, hsame, hprecede⟩ := hs.exists_precede
  rw [leftOpen_iff_leaves, ← hsame] at hopen
  obtain ⟨later, rfl, hcheck⟩ := checkFrom_written 1 [] hopen
  have hclosers := (hcheck _ (hprecede _)).trans (checkFrom_closers _ later)
  rwa [hus, List.append_assoc] at hclosers

/-- What the report of a fault tells.  The text has this fault in one place, and no
other.  The line is that of the place.  Where a closing bracket is unexpected, every
text that begins in the same way, up to and including the bracket, is rejected with
the same report.  Where a bracket has no partner, it is the innermost of those that
the text leaves open, and the partners of these complete the text. -/
theorem check_diagnosis {source : String} {e : Error} (h : check source = .error e) :
    ∃ before, FaultAt source.toList e.fault before ∧
      (∀ f other, FaultAt source.toList f other → f = e.fault ∧ other = before) ∧
      e.line = 1 + before.count '\n' ∧ 1 ≤ e.line ∧ e.line ≤ 1 + source.toList.count '\n' ∧
      (∀ b, e.fault = .unexpected b → before ++ [b.closer] <+: source.toList ∧
        ∀ text : String, before ++ [b.closer] <+: text.toList → check text = .error e) ∧
      (∀ b, e.fault = .missingCloser b → before ++ [b.opener] <+: source.toList ∧
        ∃ outer, LeavesOpen source.toList (b :: outer) ∧
          check (source ++ "\n" ++ String.ofList ((b :: outer).map Bracket.closer)) = .ok ()) := by
  obtain ⟨before, hfault, hline⟩ := checkChars_eq_error_iff.mp h
  have hbefore : before <+: source.toList := by
    obtain ⟨_, rest, _, _, hs, _⟩ := hfault
    exact ⟨rest, hs.symm⟩
  have hcount : before.count '\n' ≤ source.toList.count '\n' := hbefore.sublist.count_le _
  refine ⟨before, hfault, fun f other hother => hother.unique hfault, hline, by omega, by omega,
    fun b hb => ?_, fun b hb => ?_⟩
  · rw [hb] at hfault
    refine ⟨hfault.closer_prefix, ?_⟩
    rintro text ⟨later, htext⟩
    rw [check, ← htext, checkChars_eq_error_iff, List.append_assoc]
    exact ⟨before, by rw [hb]; exact hfault.unexpected_append later, hline⟩
  · rw [hb] at hfault
    obtain ⟨outer, hopen⟩ := hfault.leavesOpen
    refine ⟨hfault.opener_prefix, outer, hopen, ?_⟩
    have hcompleted := hopen.checkChars_append
    simpa [check] using hcompleted

/-- A bracket that the line before has opened is closed by another one. -/
theorem check_diagnosis_second_line :
    check "f(\n]" = .error ⟨.unexpected .square, 2⟩ ∧
      ∃ before, FaultAt "f(\n]".toList (.unexpected .square) before ∧
        2 = 1 + before.count '\n' ∧ ∀ text : String, before ++ [']'] <+: text.toList →
          check text = .error ⟨.unexpected .square, 2⟩ := by
  have hcheck : check "f(\n]" = .error ⟨.unexpected .square, 2⟩ := rfl
  obtain ⟨before, hfault, _, hline, _, _, hunexpected, _⟩ := check_diagnosis hcheck
  exact ⟨hcheck, before, hfault, hline, (hunexpected .square rfl).2⟩

end SingleFile.Script.Source
