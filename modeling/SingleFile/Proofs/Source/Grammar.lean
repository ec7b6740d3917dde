import SingleFile.Proofs.Source.Reading
import SingleFile.Proofs.Source.Tokens

/-!
# The grammar of accepted source

The source check reads one character at a time, so that it stands in the middle
of a token most of the time.  For every mode this file says what the rest of a
text has to be like for the split to go on, and shows that one character is read
without fault exactly when the rest behind it is again of this kind.  A text is
therefore accepted exactly when it splits into tokens whose brackets are well
nested.

Main results:

- Theorem `completes_cons_iff`: what one step of the check keeps.
- Theorem `completes_iff_run`: what a whole run of the check finds out.
- Theorem `check_eq_ok_iff_splits`: the language of the source check.
-/

namespace SingleFile.Script.Source

/-! ## The rest of a text -/

/-- Read in the mode, the text ends the token that is being read and splits
further into the tokens.  A slash that may begin a comment is yet to be split
off. -/
def Mode.Continues : Mode → List Char → List Token → Prop
  | .code, p, ts => Splits p ts
  | .slash, p, ts => Splits ('/' :: p) ts
  | .literal q _, p, ts => ∃ w r, p = w ++ q.char :: r ∧ Interior q w ∧ Splits r ts
  | .escape q _, p, ts => ∃ c w r, p = c :: (w ++ q.char :: r) ∧ Interior q w ∧ Splits r ts
  | .lineComment, p, ts =>
      (∃ w r, p = w ++ '\n' :: r ∧ '\n' ∉ w ∧ Splits r ts) ∨ '\n' ∉ p ∧ ts = []
  | .comment _, p, ts => ∃ w r, p = w ++ '*' :: '/' :: r ∧ EndsFirst w ∧ Splits r ts
  | .commentStar _, p, ts => ∃ w r, '*' :: p = w ++ '*' :: '/' :: r ∧ EndsFirst w ∧ Splits r ts

/-- Read from the state, the text splits further, and its brackets close those
that are open. -/
def State.Completes (s : State) (p : List Char) : Prop :=
  ∃ ts, s.mode.Continues p ts ∧ Closes (s.opened.map Prod.fst) (brackets ts)

theorem splits_nil_iff {ts : List Token} : Splits [] ts ↔ ts = [] := by
  constructor
  · intro h
    cases h
    rfl
  · rintro rfl
    exact .nil

theorem splits_slash_iff {ts : List Token} : Splits ['/'] ts ↔ ts = [.single '/'] := by
  constructor
  · intro h
    generalize hs : ['/'] = s at h
    cases h with
    | literal _ _ => simp at hs
    | @single c r _ _ _ rest =>
        obtain ⟨rfl, rfl⟩ := List.cons.inj hs
        rw [splits_nil_iff.mp rest]
    | _ => cases hs
  · rintro rfl
    exact .single rfl (by simp [beginsComment_slash_iff]) .nil

/-- Nothing is left to read exactly where a text may end and no bracket is
open. -/
theorem completes_nil_iff (s : State) : s.Completes [] ↔ s.mode.IsResting ∧ s.opened = [] := by
  have hstar : ∀ w r : List Char, ['*'] ≠ w ++ '*' :: '/' :: r := by
    intro w r
    cases w <;> simp
  obtain ⟨mode, line, opened⟩ := s
  cases mode <;>
    simp [State.Completes, Mode.Continues, Mode.IsResting, splits_nil_iff, splits_slash_iff,
      closes_nil_iff, hstar]

/-! ## Splitting off a character of code -/

/-- A text that begins with no slash begins with a literal or with a single
character. -/
theorem Splits.cases_of_ne_slash {c : Char} {p : List Char} {ts : List Token}
    (h : Splits (c :: p) ts) (hc : c ≠ '/') :
    (∃ q w r ts', c = q.char ∧ p = w ++ q.char :: r ∧ Interior q w ∧ Splits r ts' ∧
      ts = .literal q w :: ts') ∨
    (Quote.ofChar? c = none ∧ ∃ ts', Splits p ts' ∧ ts = .single c :: ts') := by
  generalize hs : c :: p = s at h
  cases h with
  | nil => cases hs
  | @literal q w r ts' interior rest =>
      obtain ⟨rfl, rfl⟩ := List.cons.inj hs
      exact .inl ⟨q, w, r, ts', rfl, rfl, interior, rest, rfl⟩
  | @single d r ts' quote _ rest =>
      obtain ⟨rfl, rfl⟩ := List.cons.inj hs
      exact .inr ⟨quote, ts', rest, rfl⟩
  | _ => exact absurd (List.cons.inj hs).1 hc

/-- A slash that is followed by a character begins a line comment or a block
comment, or stands for itself. -/
theorem Splits.cases_of_slash {c : Char} {p : List Char} {ts : List Token}
    (h : Splits ('/' :: c :: p) ts) :
    (c = '/' ∧ ∃ ts', Mode.lineComment.Continues p ts' ∧ brackets ts = brackets ts') ∨
    (c = '*' ∧ ∃ w r ts', p = w ++ '*' :: '/' :: r ∧ EndsFirst w ∧ Splits r ts' ∧
      brackets ts = brackets ts') ∨
    (c ≠ '/' ∧ c ≠ '*' ∧ ∃ ts', Splits (c :: p) ts' ∧ brackets ts = brackets ts') := by
  generalize hs : '/' :: c :: p = s at h
  cases h with
  | nil => cases hs
  | @literal q w r ts' interior rest =>
      have hquote := (List.cons.inj hs).1
      cases q <;> cases hquote
  | @lineComment w r ts' line rest =>
      simp only [List.cons.injEq, true_and] at hs
      exact .inl ⟨hs.1, ts', .inl ⟨w, r, hs.2, line, rest⟩, rfl⟩
  | @lastComment w line =>
      simp only [List.cons.injEq, true_and] at hs
      exact .inl ⟨hs.1, [], .inr ⟨hs.2 ▸ line, rfl⟩, rfl⟩
  | @blockComment w r ts' first rest =>
      simp only [List.cons.injEq, true_and] at hs
      exact .inr (.inl ⟨hs.1, w, r, ts', hs.2, first, rest, rfl⟩)
  | @single d r ts' quote comment rest =>
      obtain ⟨rfl, rfl⟩ := List.cons.inj hs
      rw [beginsComment_slash_iff] at comment
      refine .inr (.inr ⟨fun hc => ?_, fun hc => ?_, ts', rest, rfl⟩)
      · exact comment ⟨c, p, rfl, .inl hc⟩
      · exact comment ⟨c, p, rfl, .inr hc⟩

/-- A text that splits from a character of code on is completed where the
character is read as code. -/
theorem completes_of_splits {s : State} {c : Char} {p : List Char} {ts : List Token}
    (code : s.mode.ReadsCode c) (h : Splits (c :: p) ts)
    (hclose : Closes (s.opened.map Prod.fst) (brackets ts)) : s.Completes (c :: p) := by
  obtain ⟨mode, line, opened⟩ := s
  rcases code with hmode | ⟨hmode, hslash, hstar⟩
  · cases hmode
    exact ⟨ts, h, hclose⟩
  · cases hmode
    have hcomment : ¬ BeginsComment ('/' :: c :: p) := by
      simp [beginsComment_slash_iff, hslash, hstar]
    exact ⟨.single '/' :: ts, .single rfl hcomment h, hclose⟩

/-- Where a character is read as code, the rest behind it is completed. -/
theorem exists_reads_of_splits {s : State} {c : Char} {p : List Char} {ts : List Token}
    (code : s.mode.ReadsCode c) (hc : c ≠ '/') (h : Splits (c :: p) ts)
    (hclose : Closes (s.opened.map Prod.fst) (brackets ts)) :
    ∃ t, Reads s c t ∧ t.Completes p := by
  rcases h.cases_of_ne_slash hc with ⟨q, w, r, ts', hchar, rfl, hw, hr, rfl⟩ |
    ⟨hquote, ts', hp, rfl⟩
  · exact ⟨_, .quote code hchar, ts', ⟨w, r, rfl, hw, hr⟩, hclose⟩
  · cases hopener : Bracket.ofOpener? c with
    | some b =>
        have hchar := Bracket.eq_opener_of_ofOpener? hopener
        rw [hchar, brackets_opener, closes_opener_iff] at hclose
        exact ⟨_, .opener code hchar, ts', hp, hclose⟩
    | none =>
        cases hcloser : Bracket.ofCloser? c with
        | some b =>
            have hchar := Bracket.eq_closer_of_ofCloser? hcloser
            rw [hchar, brackets_closer, closes_closer_iff] at hclose
            obtain ⟨outer, houter, hrest⟩ := hclose
            obtain ⟨⟨b', line⟩, rest, htop, rfl, rfl⟩ := List.map_eq_cons_iff.mp houter
            exact ⟨_, .closer code hchar htop, ts', hp, hrest⟩
        | none =>
            have hplain : IsPlain c := ⟨hquote, hopener, hcloser, hc⟩
            rw [brackets_plain hplain] at hclose
            exact ⟨_, .plain code hplain, ts', hp, hclose⟩

/-! ## Steps -/

/-- A character of a block comment that does not end it leads further towards
its end. -/
theorem exists_reads_of_comment {s : State} {line : Nat} {c : Char} {p w r : List Char}
    {ts : List Token}
    (hmode : s.mode = .comment line ∨ s.mode = .commentStar line ∧ c ≠ '/')
    (hp : c :: p = w ++ '*' :: '/' :: r) (hfirst : EndsFirst w) (hr : Splits r ts)
    (hclose : Closes (s.opened.map Prod.fst) (brackets ts)) :
    ∃ t, Reads s c t ∧ t.Completes p := by
  by_cases hc : c = '*'
  · subst hc
    have hstar : s.mode = .comment line ∨ s.mode = .commentStar line := hmode.imp_right And.left
    exact ⟨_, .star hstar rfl, ts, ⟨w, r, hp, hfirst, hr⟩, hclose⟩
  · cases w with
    | nil => exact absurd (List.cons.inj hp).1 hc
    | cons d w =>
        obtain ⟨rfl, rfl⟩ := List.cons.inj hp
        have hrest : EndsFirst w := (endsFirst_cons_iff_of_ne hc).mp hfirst
        exact ⟨_, .inComment hmode hc, ts, ⟨w, r, rfl, hrest, hr⟩, hclose⟩

section Forwards

variable {line : Nat} {opened : List (Bracket × Nat)} {c : Char} {p : List Char}
  {ts : List Token}

/-- Behind a slash a comment begins, or the character is read as code. -/
theorem exists_reads_of_slash (hts : Mode.slash.Continues (c :: p) ts)
    (hclose : Closes (opened.map Prod.fst) (brackets ts)) :
    ∃ t, Reads ⟨.slash, line, opened⟩ c t ∧ t.Completes p := by
  rcases Splits.cases_of_slash hts with ⟨hc, ts', hp, hsame⟩ |
    ⟨hc, w, r, ts', hp, hfirst, hr, hsame⟩ | ⟨hslash, hstar, ts', hp, hsame⟩
  · exact ⟨_, .beginLineComment rfl hc, ts', hp, hsame ▸ hclose⟩
  · exact ⟨_, .beginComment rfl hc, ts', ⟨w, r, hp, hfirst, hr⟩, hsame ▸ hclose⟩
  · exact exists_reads_of_splits (.inr ⟨rfl, hslash, hstar⟩) hslash hp (hsame ▸ hclose)

/-- A character of a literal ends it, escapes the next one or belongs to it. -/
theorem exists_reads_of_literal {q : Quote} {start : Nat}
    (hts : (Mode.literal q start).Continues (c :: p) ts)
    (hclose : Closes (opened.map Prod.fst) (brackets ts)) :
    ∃ t, Reads ⟨.literal q start, line, opened⟩ c t ∧ t.Completes p := by
  obtain ⟨w, r, hp, hw, hr⟩ := hts
  cases hw with
  | nil =>
      obtain ⟨hc, rfl⟩ := List.cons.inj hp
      exact ⟨_, .endLiteral rfl hc, ts, hr, hclose⟩
  | @escaped d w rest =>
      obtain ⟨hc, rfl⟩ := List.cons.inj hp
      exact ⟨_, .backslash rfl hc, ts, ⟨d, w, r, rfl, rest, hr⟩, hclose⟩
  | plain backslash quote feed rest =>
      obtain ⟨rfl, rfl⟩ := List.cons.inj hp
      exact ⟨_, .inLiteral rfl backslash quote feed, ts, ⟨_, r, rfl, rest, hr⟩, hclose⟩

/-- A character of a line comment is the line feed that ends it or belongs to it. -/
theorem exists_reads_of_lineComment (hts : Mode.lineComment.Continues (c :: p) ts)
    (hclose : Closes (opened.map Prod.fst) (brackets ts)) :
    ∃ t, Reads ⟨.lineComment, line, opened⟩ c t ∧ t.Completes p := by
  rcases hts with ⟨w, r, hp, hw, hr⟩ | ⟨hp, hnil⟩
  · cases w with
    | nil =>
        obtain ⟨hc, rfl⟩ := List.cons.inj hp
        exact ⟨_, .endLineComment rfl hc, ts, hr, hclose⟩
    | cons d w =>
        obtain ⟨rfl, rfl⟩ := List.cons.inj hp
        simp only [List.mem_cons, not_or] at hw
        exact ⟨_, .inLineComment rfl (Ne.symm hw.1), ts, .inl ⟨w, r, rfl, hw.2, hr⟩, hclose⟩
  · simp only [List.mem_cons, not_or] at hp
    exact ⟨_, .inLineComment rfl (Ne.symm hp.1), ts, .inr ⟨hp.2, hnil⟩, hclose⟩

/-- Behind a star of a block comment, a slash ends the comment and any other character
leads on in it. -/
theorem exists_reads_of_commentStar {start : Nat}
    (hts : (Mode.commentStar start).Continues (c :: p) ts)
    (hclose : Closes (opened.map Prod.fst) (brackets ts)) :
    ∃ t, Reads ⟨.commentStar start, line, opened⟩ c t ∧ t.Completes p := by
  obtain ⟨w, r, hp, hfirst, hr⟩ := hts
  cases w with
  | nil =>
      simp only [List.nil_append, List.cons.injEq, true_and] at hp
      obtain ⟨hc, rfl⟩ := hp
      exact ⟨_, .endComment rfl hc, ts, hr, hclose⟩
  | cons d w =>
      obtain ⟨rfl, hrest⟩ := List.cons.inj hp
      obtain ⟨hlater, hslash⟩ := endsFirst_star_iff.mp hfirst
      have hc : c ≠ '/' := by
        rintro rfl
        cases w with
        | nil => cases (List.cons.inj hrest).1
        | cons e w =>
            obtain ⟨rfl, _⟩ := List.cons.inj hrest
            exact hslash w rfl
      exact exists_reads_of_comment (.inr ⟨rfl, hc⟩) hrest hlater hr hclose

end Forwards

/-- Where a text is completed, its first character is read without fault and
the rest is completed. -/
theorem exists_reads_of_completes {s : State} {c : Char} {p : List Char}
    (h : s.Completes (c :: p)) : ∃ t, Reads s c t ∧ t.Completes p := by
  obtain ⟨mode, line, opened⟩ := s
  obtain ⟨ts, hts, hclose⟩ := h
  cases mode with
  | code =>
      by_cases hc : c = '/'
      · subst hc
        exact ⟨_, .slash rfl rfl, ts, hts, hclose⟩
      · exact exists_reads_of_splits (.inl rfl) hc hts hclose
  | slash => exact exists_reads_of_slash hts hclose
  | literal q start => exact exists_reads_of_literal hts hclose
  | escape q start =>
      obtain ⟨d, w, r, hp, hw, hr⟩ := hts
      obtain ⟨rfl, rfl⟩ := List.cons.inj hp
      exact ⟨_, .escaped rfl, ts, ⟨w, r, rfl, hw, hr⟩, hclose⟩
  | lineComment => exact exists_reads_of_lineComment hts hclose
  | comment start =>
      obtain ⟨w, r, hp, hfirst, hr⟩ := hts
      exact exists_reads_of_comment (.inl rfl) hp hfirst hr hclose
  | commentStar start => exact exists_reads_of_commentStar hts hclose

section Backwards

variable {q : Quote} {line : Nat} {c : Char} {p : List Char} {ts : List Token}

/-- Behind a quote, what goes on as a literal completes a text with the quote. -/
theorem completes_quote {s : State} (code : s.mode.ReadsCode q.char)
    (hts : (Mode.literal q line).Continues p ts)
    (hclose : Closes (s.opened.map Prod.fst) (brackets ts)) : s.Completes (q.char :: p) := by
  obtain ⟨w, r, rfl, hw, hr⟩ := hts
  exact completes_of_splits code (.literal hw hr) hclose

/-- Behind an opening bracket, what closes it completes a text with the bracket. -/
theorem completes_opener {s : State} {b : Bracket} (code : s.mode.ReadsCode b.opener)
    (hts : Splits p ts) (hclose : Closes (b :: s.opened.map Prod.fst) (brackets ts)) :
    s.Completes (b.opener :: p) := by
  have hne : b.opener ≠ '/' := by cases b <;> decide
  have hquote : Quote.ofChar? b.opener = none := by cases b <;> rfl
  refine completes_of_splits code (.single hquote (not_beginsComment_of_ne hne p) hts) ?_
  rw [brackets_opener]
  exact .opener hclose

/-- Behind a bracket that closes the innermost open one, what closes the others completes a
text with the bracket. -/
theorem completes_closer {s : State} {b : Bracket} {rest : List (Bracket × Nat)}
    (code : s.mode.ReadsCode b.closer) (top : s.opened = (b, line) :: rest)
    (hts : Splits p ts) (hclose : Closes (rest.map Prod.fst) (brackets ts)) :
    s.Completes (b.closer :: p) := by
  have hne : b.closer ≠ '/' := by cases b <;> decide
  have hquote : Quote.ofChar? b.closer = none := by cases b <;> rfl
  refine completes_of_splits code (.single hquote (not_beginsComment_of_ne hne p) hts) ?_
  rw [brackets_closer, top]
  exact .closer hclose

/-- A plain character stands for itself before what is completed. -/
theorem completes_plain {s : State} (code : s.mode.ReadsCode c) (char : IsPlain c)
    (hts : Splits p ts) (hclose : Closes (s.opened.map Prod.fst) (brackets ts)) :
    s.Completes (c :: p) := by
  have hsplits := Splits.single char.ofChar?_eq_none (not_beginsComment_of_ne char.ne_slash p) hts
  refine completes_of_splits code hsplits ?_
  rw [brackets_plain char]
  exact hclose

/-- What goes on as a line comment splits behind two slashes. -/
theorem exists_continues_lineComment (hts : Mode.lineComment.Continues p ts) :
    ∃ ts', Mode.slash.Continues ('/' :: p) ts' ∧ brackets ts' = brackets ts := by
  rcases hts with ⟨w, r, rfl, hw, hr⟩ | ⟨hp, rfl⟩
  · exact ⟨.lineComment w :: ts, .lineComment hw hr, rfl⟩
  · exact ⟨[.lineComment p], .lastComment hp, rfl⟩

/-- What goes on as a block comment splits behind a slash and a star. -/
theorem exists_continues_comment (hts : (Mode.comment line).Continues p ts) :
    ∃ ts', Mode.slash.Continues ('*' :: p) ts' ∧ brackets ts' = brackets ts := by
  obtain ⟨w, r, rfl, hfirst, hr⟩ := hts
  exact ⟨.blockComment w :: ts, .blockComment hfirst hr, rfl⟩

/-- A backslash and what it escapes belong to a literal. -/
theorem continues_backslash (hts : (Mode.escape q line).Continues p ts) :
    (Mode.literal q line).Continues ('\\' :: p) ts := by
  obtain ⟨d, w, r, rfl, hw, hr⟩ := hts
  exact ⟨_, r, rfl, .escaped d hw, hr⟩

/-- A character that neither ends nor breaks a literal belongs to it. -/
theorem continues_inLiteral (backslash : c ≠ '\\') (quote : c ≠ q.char)
    (feed : c = '\n' → q = .backtick) (hts : (Mode.literal q line).Continues p ts) :
    (Mode.literal q line).Continues (c :: p) ts := by
  obtain ⟨w, r, rfl, hw, hr⟩ := hts
  exact ⟨c :: w, r, rfl, .plain backslash quote feed hw, hr⟩

/-- Any character may stand behind a backslash. -/
theorem continues_escaped (c : Char) (hts : (Mode.literal q line).Continues p ts) :
    (Mode.escape q line).Continues (c :: p) ts := by
  obtain ⟨w, r, rfl, hw, hr⟩ := hts
  exact ⟨c, w, r, rfl, hw, hr⟩

/-- A line comment goes on with any character but a line feed. -/
theorem continues_inLineComment (char : c ≠ '\n') (hts : Mode.lineComment.Continues p ts) :
    Mode.lineComment.Continues (c :: p) ts := by
  rcases hts with ⟨w, r, rfl, hw, hr⟩ | ⟨hp, hnil⟩
  · exact .inl ⟨c :: w, r, rfl, by simp [Ne.symm char, hw], hr⟩
  · exact .inr ⟨by simp [Ne.symm char, hp], hnil⟩

/-- A block comment goes on with any character that does not end it. -/
theorem continues_inComment {mode : Mode}
    (comment : mode = .comment line ∨ mode = .commentStar line ∧ c ≠ '/') (char : c ≠ '*')
    (hts : (Mode.comment line).Continues p ts) : mode.Continues (c :: p) ts := by
  obtain ⟨w, r, rfl, hfirst, hr⟩ := hts
  have hcons : EndsFirst (c :: w) := (endsFirst_cons_iff_of_ne char).mpr hfirst
  rcases comment with rfl | ⟨rfl, hslash⟩
  · exact ⟨c :: w, r, rfl, hcons, hr⟩
  · have hstar : EndsFirst ('*' :: c :: w) := by
      rw [endsFirst_star_iff]
      exact ⟨hcons, fun r hr => hslash (List.cons.inj hr).1⟩
    exact ⟨'*' :: c :: w, r, rfl, hstar, hr⟩

/-- A star in a block comment may be the one that ends it. -/
theorem continues_star {mode : Mode} (comment : mode = .comment line ∨ mode = .commentStar line)
    (hts : (Mode.commentStar line).Continues p ts) : mode.Continues ('*' :: p) ts := by
  obtain ⟨w, r, hp, hfirst, hr⟩ := hts
  rcases comment with rfl | rfl
  · exact ⟨w, r, hp, hfirst, hr⟩
  · have hstar : EndsFirst ('*' :: w) := by
      rw [endsFirst_star_iff]
      refine ⟨hfirst, fun x hx => ?_⟩
      rw [hx] at hp
      cases (List.cons.inj hp).1
    exact ⟨'*' :: w, r, by rw [hp]; rfl, hstar, hr⟩

end Backwards

/-- A character that is read without fault completes a text with what is
completed behind it. -/
theorem Reads.completes_cons {s t : State} {c : Char} {p : List Char} (h : Reads s c t)
    (hp : t.Completes p) : s.Completes (c :: p) := by
  obtain ⟨mode, line, opened⟩ := s
  obtain ⟨ts, hts, hclose⟩ := hp
  cases h with
  | quote code char =>
      subst char
      exact completes_quote code hts hclose
  | opener code char =>
      subst char
      exact completes_opener code hts hclose
  | closer code char top =>
      subst char
      exact completes_closer code top hts hclose
  | slash code char =>
      cases code
      subst char
      exact ⟨ts, hts, hclose⟩
  | plain code char => exact completes_plain code char hts hclose
  | beginLineComment slash char =>
      cases slash
      subst char
      obtain ⟨ts', hts', hsame⟩ := exists_continues_lineComment hts
      exact ⟨ts', hts', hsame ▸ hclose⟩
  | beginComment slash char =>
      cases slash
      subst char
      obtain ⟨ts', hts', hsame⟩ := exists_continues_comment hts
      exact ⟨ts', hts', hsame ▸ hclose⟩
  | backslash literal char =>
      cases literal
      subst char
      exact ⟨ts, continues_backslash hts, hclose⟩
  | endLiteral literal char =>
      cases literal
      subst char
      exact ⟨ts, ⟨[], p, rfl, .nil, hts⟩, hclose⟩
  | inLiteral literal backslash quote feed =>
      cases literal
      exact ⟨ts, continues_inLiteral backslash quote feed hts, hclose⟩
  | escaped escape =>
      cases escape
      exact ⟨ts, continues_escaped c hts, hclose⟩
  | inLineComment comment char =>
      cases comment
      exact ⟨ts, continues_inLineComment char hts, hclose⟩
  | endLineComment comment char =>
      cases comment
      subst char
      exact ⟨ts, .inl ⟨[], p, rfl, List.not_mem_nil, hts⟩, hclose⟩
  | inComment comment char => exact ⟨ts, continues_inComment comment char hts, hclose⟩
  | star comment char =>
      subst char
      exact ⟨ts, continues_star comment hts, hclose⟩
  | endComment comment char =>
      cases comment
      subst char
      exact ⟨ts, ⟨[], p, rfl, endsFirst_nil, hts⟩, hclose⟩

/-- A text is completed exactly when its first character is read without fault
and the rest is completed behind it. -/
theorem completes_cons_iff {s : State} {c : Char} {p : List Char} :
    s.Completes (c :: p) ↔ ∃ t, Reads s c t ∧ t.Completes p := by
  refine ⟨exists_reads_of_completes, ?_⟩
  rintro ⟨t, hstep, hp⟩
  exact hstep.completes_cons hp

/-! ## Runs -/

/-- A text is completed exactly when it is read without fault to where a text
may end with no bracket open. -/
theorem completes_iff_run (s : State) (p : List Char) :
    s.Completes p ↔ ∃ t, run s p = .ok t ∧ t.mode.IsResting ∧ t.opened = [] := by
  induction p generalizing s with
  | nil => simp [completes_nil_iff]
  | cons c p ih =>
      simp only [completes_cons_iff, ih, run_cons_eq_ok_iff]
      constructor
      · rintro ⟨u, hstep, t, hrun, hend⟩
        exact ⟨t, ⟨u, hstep, hrun⟩, hend⟩
      · rintro ⟨t, ⟨u, hstep, hrun⟩, hend⟩
        exact ⟨u, hstep, t, hrun, hend⟩

/-- A text is accepted exactly when it splits completely, from left to right,
into literals, comments and single characters, and the brackets among the single
characters are well nested. -/
theorem check_eq_ok_iff_splits (source : String) :
    check source = .ok () ↔ ∃ ts, Splits source.toList ts ∧ WellNested (brackets ts) := by
  rw [check, checkChars_eq_ok_iff, ← completes_iff_run]
  simp only [wellNested_iff_closes]
  exact Iff.rfl

end SingleFile.Script.Source
