import SingleFile.Proofs.Source.Grammar

/-!
# Pieces of source

Splitting a text into tokens from left to right needs no more of the text than
what has been split off and, at a slash, the character behind it.  So the
beginning of a text has tokens of its own, whatever becomes of the rest, and a
text that cannot be split any further stands before a literal or a block comment
that does not end.

Main results:

- Theorem `Precede.comparable`: a text is split in one way only, as far as it is
  split.
- Theorem `exists_piece`: with what a text can begin.
- Theorem `Splits.exists_precede`: text that splits completely does so on a line of
  its own, before any other text.
-/

namespace SingleFile.Script.Source

/-! ## Tokens and their text -/

/-- The text of a token; a line comment takes its line feed with it. -/
def Token.text : Token → List Char
  | .literal q w => q.char :: (w ++ [q.char])
  | .lineComment w => '/' :: '/' :: (w ++ ['\n'])
  | .blockComment w => '/' :: '*' :: (w ++ ['*', '/'])
  | .single c => [c]

/-- The text of tokens. -/
def written (ts : List Token) : List Char :=
  ts.flatMap Token.text

/-- The token is split off where its text stands before the rest. -/
def Token.Precedes (rest : List Char) : Token → Prop
  | .literal q w => Interior q w
  | .lineComment w => '\n' ∉ w
  | .blockComment w => EndsFirst w
  | .single c => Quote.ofChar? c = none ∧ ¬ BeginsComment (c :: rest)

/-- The tokens are split off, one after the other, where their text stands before
the rest. -/
def Precede : List Token → List Char → Prop
  | [], _ => True
  | t :: ts, rest => t.Precedes (written ts ++ rest) ∧ Precede ts rest

@[simp]
theorem written_nil : written [] = [] :=
  rfl

@[simp]
theorem written_cons (t : Token) (ts : List Token) : written (t :: ts) = t.text ++ written ts :=
  rfl

@[simp]
theorem written_append (ts us : List Token) : written (ts ++ us) = written ts ++ written us :=
  List.flatMap_append

@[simp]
theorem brackets_append (ts us : List Token) : brackets (ts ++ us) = brackets ts ++ brackets us :=
  List.filterMap_append

theorem brackets_cons (t : Token) (ts : List Token) :
    brackets (t :: ts) = brackets [t] ++ brackets ts :=
  brackets_append [t] ts

/-- Tokens may precede a text if the first do so before the others and the others before
it. -/
theorem precede_append_iff {ts us : List Token} {rest : List Char} :
    Precede (ts ++ us) rest ↔ Precede ts (written us ++ rest) ∧ Precede us rest := by
  induction ts with
  | nil => simp [Precede]
  | cons t ts ih => simp [Precede, ih, and_assoc]

/-- Whether tokens are split off depends on the first character behind them only. -/
theorem Precede.replace {ts : List Token} {c : Char} {r : List Char} (h : Precede ts (c :: r))
    (r' : List Char) : Precede ts (c :: r') := by
  induction ts with
  | nil => exact trivial
  | cons t ts ih =>
      refine ⟨?_, ih h.2⟩
      have ht := h.1
      cases t with
      | single d =>
          refine ⟨ht.1, fun hcomment => ht.2 ?_⟩
          cases hw : written ts with
          | nil => simpa [BeginsComment, hw] using hcomment
          | cons e w => simpa [BeginsComment, hw] using hcomment
      | _ => exact ht

/-- An opening bracket is split off wherever it stands. -/
theorem Bracket.precedes_opener (b : Bracket) (rest : List Char) :
    (Token.single b.opener).Precedes rest :=
  ⟨by cases b <;> rfl, not_beginsComment_of_ne (by cases b <;> decide) rest⟩

theorem Bracket.precedes_closer (b : Bracket) (rest : List Char) :
    (Token.single b.closer).Precedes rest :=
  ⟨by cases b <;> rfl, not_beginsComment_of_ne (by cases b <;> decide) rest⟩

/-- A token goes before the others that a text splits into. -/
theorem Token.Precedes.splits {t : Token} {s : List Char} {ts : List Token} (ht : t.Precedes s)
    (hs : Splits s ts) : Splits (t.text ++ s) (t :: ts) := by
  cases t with
  | literal q w => simpa [Token.text] using Splits.literal ht hs
  | lineComment w => simpa [Token.text] using Splits.lineComment ht hs
  | blockComment w => simpa [Token.text] using Splits.blockComment ht hs
  | single c => exact .single ht.1 ht.2 hs

/-- Tokens that may precede a text are the first ones when both are split together. -/
theorem Precede.splits {ts us : List Token} {s : List Char} (ht : Precede ts s)
    (hs : Splits s us) : Splits (written ts ++ s) (ts ++ us) := by
  induction ts with
  | nil => exact hs
  | cons t ts ih =>
      have hsplits := ht.1.splits (ih ht.2)
      simpa using hsplits

/-! ## One way to split -/

theorem Quote.char_injective {q q' : Quote} (h : q.char = q'.char) : q = q' := by
  have hsome : some q = some q' := by
    rw [← ofChar?_char q, h, ofChar?_char]
  exact Option.some.inj hsome

theorem Quote.char_ne_backslash (q : Quote) : q.char ≠ '\\' := by
  cases q <;> decide

theorem Quote.char_ne_slash (q : Quote) : q.char ≠ '/' := by
  cases q <;> decide

/-- A literal ends at the first quote that is not escaped. -/
theorem Interior.unique {q : Quote} {w w' r r' : List Char} (hw : Interior q w)
    (hw' : Interior q w') (h : w ++ q.char :: r = w' ++ q.char :: r') : w = w' ∧ r = r' := by
  induction hw generalizing w' with
  | nil =>
      cases hw' with
      | nil => exact ⟨rfl, (List.cons.inj h).2⟩
      | escaped _ _ => exact absurd (List.cons.inj h).1 q.char_ne_backslash
      | plain _ quote _ _ => exact absurd (List.cons.inj h).1.symm quote
  | @escaped c w _ ih =>
      cases hw' with
      | nil => exact absurd (List.cons.inj h).1.symm q.char_ne_backslash
      | escaped c' rest =>
          simp only [List.cons_append, List.cons.injEq, true_and] at h
          obtain ⟨rfl, hrest⟩ := h
          obtain ⟨rfl, rfl⟩ := ih rest hrest
          exact ⟨rfl, rfl⟩
      | plain backslash _ _ _ => exact absurd (List.cons.inj h).1.symm backslash
  | @plain c w backslash quote _ _ ih =>
      cases hw' with
      | nil => exact absurd (List.cons.inj h).1 quote
      | escaped _ _ => exact absurd (List.cons.inj h).1 backslash
      | plain _ _ _ rest =>
          simp only [List.cons_append, List.cons.injEq] at h
          obtain ⟨rfl, hrest⟩ := h
          obtain ⟨rfl, rfl⟩ := ih rest hrest
          exact ⟨rfl, rfl⟩

/-- What ends at its last place first still does so without its first character. -/
theorem EndsFirst.tail {c : Char} {w : List Char} (h : EndsFirst (c :: w)) : EndsFirst w := by
  by_cases hc : c = '*'
  · rw [hc, endsFirst_star_iff] at h
    exact h.1
  · exact (endsFirst_cons_iff_of_ne hc).mp h

/-- No star with a slash stands before the end of a block comment. -/
theorem EndsFirst.not_of_cons {c : Char} {w r r' : List Char} (h : EndsFirst (c :: w)) :
    '*' :: '/' :: r ≠ c :: (w ++ '*' :: '/' :: r') := by
  intro heq
  obtain ⟨rfl, hrest⟩ := List.cons.inj heq
  cases w with
  | nil => cases (List.cons.inj hrest).1
  | cons d w =>
      obtain ⟨rfl, _⟩ := List.cons.inj hrest
      exact (endsFirst_star_iff.mp h).2 w rfl

/-- A block comment ends at the first star with a slash. -/
theorem EndsFirst.unique {w w' r r' : List Char} (hw : EndsFirst w) (hw' : EndsFirst w')
    (h : w ++ '*' :: '/' :: r = w' ++ '*' :: '/' :: r') : w = w' ∧ r = r' := by
  induction w generalizing w' with
  | nil =>
      cases w' with
      | nil => simpa using h
      | cons c w' => exact absurd h hw'.not_of_cons
  | cons c w ih =>
      cases w' with
      | nil => exact absurd h.symm hw.not_of_cons
      | cons c' w' =>
          obtain ⟨rfl, hrest⟩ := List.cons.inj h
          obtain ⟨rfl, rfl⟩ := ih hw.tail hw'.tail hrest
          exact ⟨rfl, rfl⟩

/-- A line ends at the first line feed. -/
theorem line_unique {w w' r r' : List Char} (hw : '\n' ∉ w) (hw' : '\n' ∉ w')
    (h : w ++ '\n' :: r = w' ++ '\n' :: r') : w = w' ∧ r = r' := by
  induction w generalizing w' with
  | nil =>
      cases w' with
      | nil => exact ⟨rfl, (List.cons.inj h).2⟩
      | cons c w' => exact absurd (List.mem_cons.mpr (.inl (List.cons.inj h).1)) hw'
  | cons c w ih =>
      cases w' with
      | nil => exact absurd (List.mem_cons.mpr (.inl (List.cons.inj h).1.symm)) hw
      | cons c' w' =>
          simp only [List.mem_cons, not_or] at hw hw'
          obtain ⟨rfl, hrest⟩ := List.cons.inj h
          obtain ⟨rfl, rfl⟩ := ih hw.2 hw'.2 hrest
          exact ⟨rfl, rfl⟩

/-- A text that begins with a single character begins with no other token. -/
theorem Token.Precedes.eq_single {u : Token} {c : Char} {r s : List Char} (hu : u.Precedes s)
    (hc : (Token.single c).Precedes r) (h : u.text ++ s = c :: r) : u = .single c ∧ s = r := by
  cases u with
  | literal q w =>
      have hnone := hc.1
      rw [← (List.cons.inj h).1, Quote.ofChar?_char] at hnone
      cases hnone
  | lineComment w =>
      obtain ⟨rfl, rfl⟩ := List.cons.inj h
      exact absurd (beginsComment_slash_iff.mpr ⟨'/', _, rfl, .inl rfl⟩) hc.2
  | blockComment w =>
      obtain ⟨rfl, rfl⟩ := List.cons.inj h
      exact absurd (beginsComment_slash_iff.mpr ⟨'*', _, rfl, .inr rfl⟩) hc.2
  | single d =>
      obtain ⟨rfl, rfl⟩ := List.cons.inj h
      exact ⟨rfl, rfl⟩

/-- A text begins with one token only. -/
theorem Token.Precedes.unique {t u : Token} {r s : List Char} (ht : t.Precedes r)
    (hu : u.Precedes s) (h : t.text ++ r = u.text ++ s) : t = u ∧ r = s := by
  cases t with
  | single c =>
      obtain ⟨rfl, rfl⟩ := hu.eq_single ht h.symm
      exact ⟨rfl, rfl⟩
  | literal q w =>
      cases u with
      | single c => exact ht.eq_single hu h
      | literal q' w' =>
          simp only [text, List.cons_append, List.append_assoc, List.nil_append,
            List.cons.injEq] at h
          obtain ⟨hq, hrest⟩ := h
          cases Quote.char_injective hq
          obtain ⟨rfl, rfl⟩ := Interior.unique ht hu hrest
          exact ⟨rfl, rfl⟩
      | lineComment w' => exact absurd (List.cons.inj h).1 q.char_ne_slash
      | blockComment w' => exact absurd (List.cons.inj h).1 q.char_ne_slash
  | lineComment w =>
      cases u with
      | single c => exact ht.eq_single hu h
      | literal q w' => exact absurd (List.cons.inj h).1.symm q.char_ne_slash
      | lineComment w' =>
          simp only [text, List.cons_append, List.append_assoc, List.nil_append,
            List.cons.injEq, true_and] at h
          obtain ⟨rfl, rfl⟩ := line_unique ht hu h
          exact ⟨rfl, rfl⟩
      | blockComment w' =>
          simp only [text, List.cons_append, List.cons.injEq] at h
          exact absurd h.2.1 (by decide)
  | blockComment w =>
      cases u with
      | single c => exact ht.eq_single hu h
      | literal q w' => exact absurd (List.cons.inj h).1.symm q.char_ne_slash
      | lineComment w' =>
          simp only [text, List.cons_append, List.cons.injEq] at h
          exact absurd h.2.1 (by decide)
      | blockComment w' =>
          simp only [text, List.cons_append, List.append_assoc, List.nil_append,
            List.cons.injEq, true_and] at h
          obtain ⟨rfl, rfl⟩ := EndsFirst.unique ht hu h
          exact ⟨rfl, rfl⟩

/-- A text is split in one way only, as far as it is split. -/
theorem Precede.comparable {ts us : List Token} {r s : List Char} (ht : Precede ts r)
    (hu : Precede us s) (h : written ts ++ r = written us ++ s) : ts <+: us ∨ us <+: ts := by
  induction ts generalizing us with
  | nil => exact .inl List.nil_prefix
  | cons t ts ih =>
      cases us with
      | nil => exact .inr List.nil_prefix
      | cons u us =>
          simp only [written_cons, List.append_assoc] at h
          obtain ⟨rfl, hrest⟩ := ht.1.unique hu.1 h
          simpa [List.cons_prefix_cons] using ih ht.2 hu.2 hrest

/-! ## With what a text begins -/

/-- A literal or a block comment begins the text and does not end in it. -/
inductive Unended : List Char → Fault → Prop where
  | literal {q : Quote} {s : List Char} (never : ∀ w r, s = w ++ q.char :: r → ¬ Interior q w) :
      Unended (q.char :: s) q.unterminated
  | comment {s : List Char} (never : ¬ ['*', '/'] <:+: s) :
      Unended ('/' :: '*' :: s) .unterminatedComment

/-- Such a piece is no matter of brackets. -/
theorem Unended.fault_ne {s : List Char} {f : Fault} (h : Unended s f) :
    (∀ b, f ≠ .unexpected b) ∧ ∀ b, f ≠ .missingCloser b := by
  cases h with
  | @literal q _ _ => cases q <;> exact ⟨nofun, nofun⟩
  | comment _ => exact ⟨nofun, nofun⟩

/-- Where a star with a slash occurs, there is a first one. -/
theorem exists_endsFirst {s : List Char} (h : ['*', '/'] <:+: s) :
    ∃ w r, s = w ++ '*' :: '/' :: r ∧ EndsFirst w := by
  induction s with
  | nil => simp at h
  | cons c s ih =>
      by_cases hbegin : ['*', '/'] <+: c :: s
      · obtain ⟨r, hr⟩ := hbegin
        exact ⟨[], r, hr.symm, endsFirst_nil⟩
      · obtain ⟨w, r, rfl, hw⟩ := ih ((List.infix_cons_iff.mp h).resolve_left hbegin)
        refine ⟨c :: w, r, rfl, ?_⟩
        by_cases hc : c = '*'
        · subst hc
          refine endsFirst_star_iff.mpr ⟨hw, ?_⟩
          rintro v rfl
          exact hbegin ⟨_, rfl⟩
        · exact (endsFirst_cons_iff_of_ne hc).mpr hw

/-- A text begins with a token, with a line comment on its last line, or with a
literal or a block comment that does not end. -/
theorem exists_piece (c : Char) (s : List Char) :
    (∃ (t : Token) (r : List Char), c :: s = t.text ++ r ∧ t.Precedes r) ∨
    (∃ w, c :: s = '/' :: '/' :: w ∧ '\n' ∉ w) ∨ ∃ f, Unended (c :: s) f := by
  cases hquote : Quote.ofChar? c with
  | some q =>
      rw [Quote.eq_char_of_ofChar? hquote]
      by_cases hends : ∃ w r, s = w ++ q.char :: r ∧ Interior q w
      · obtain ⟨w, r, rfl, hw⟩ := hends
        exact .inl ⟨.literal q w, r, by simp [Token.text], hw⟩
      · exact .inr (.inr ⟨_, .literal fun w r hs hw => hends ⟨w, r, hs, hw⟩⟩)
  | none =>
      by_cases hcomment : BeginsComment (c :: s)
      · have hc : c = '/' := Classical.byContradiction fun hc =>
          not_beginsComment_of_ne hc s hcomment
        subst hc
        obtain ⟨d, r, rfl, rfl | rfl⟩ := beginsComment_slash_iff.mp hcomment
        · by_cases hline : '\n' ∈ r
          · obtain ⟨w, v, rfl, hw⟩ := List.eq_append_cons_of_mem hline
            exact .inl ⟨.lineComment w, v, by simp [Token.text], hw⟩
          · exact .inr (.inl ⟨r, rfl, hline⟩)
        · by_cases hends : ['*', '/'] <:+: r
          · obtain ⟨w, v, rfl, hw⟩ := exists_endsFirst hends
            exact .inl ⟨.blockComment w, v, by simp [Token.text], hw⟩
          · exact .inr (.inr ⟨_, .comment hends⟩)
      · exact .inl ⟨.single c, s, rfl, hquote, hcomment⟩

/-- A token stands in the way of a literal or a block comment that does not
end. -/
theorem Unended.not_precedes {t : Token} {r s : List Char} {f : Fault} (h : Unended s f)
    (ht : t.Precedes r) : s ≠ t.text ++ r := by
  intro heq
  cases h with
  | @literal q s never =>
      cases t with
      | literal q' w =>
          simp only [Token.text, List.cons_append, List.append_assoc, List.nil_append,
            List.cons.injEq] at heq
          obtain ⟨hq, hrest⟩ := heq
          cases Quote.char_injective hq
          exact never w r hrest ht
      | lineComment w => exact q.char_ne_slash (List.cons.inj heq).1
      | blockComment w => exact q.char_ne_slash (List.cons.inj heq).1
      | single c =>
          have hnone := ht.1
          rw [← (List.cons.inj heq).1, Quote.ofChar?_char] at hnone
          cases hnone
  | comment never =>
      cases t with
      | literal q w => exact q.char_ne_slash (List.cons.inj heq).1.symm
      | lineComment w =>
          simp only [Token.text, List.cons_append, List.cons.injEq] at heq
          exact absurd heq.2.1 (by decide)
      | blockComment w =>
          simp only [Token.text, List.cons_append, List.append_assoc, List.nil_append,
            List.cons.injEq, true_and] at heq
          exact never ⟨w, r, by simp [heq]⟩
      | single c =>
          obtain ⟨rfl, rfl⟩ := List.cons.inj heq
          exact ht.2 (beginsComment_slash_iff.mpr ⟨'*', _, rfl, .inr rfl⟩)

/-! ## Lines -/

/-- A character that begins no comment begins none before a line feed and
another text. -/
theorem not_beginsComment_append_newline {c : Char} {s : List Char}
    (h : ¬ BeginsComment (c :: s)) (rest : List Char) :
    ¬ BeginsComment (c :: (s ++ '\n' :: rest)) := by
  by_cases hc : c = '/'
  · subst hc
    rw [beginsComment_slash_iff] at h ⊢
    rintro ⟨d, r, hs, hd⟩
    cases s with
    | nil =>
        obtain ⟨rfl, _⟩ := List.cons.inj hs
        simp at hd
    | cons e s =>
        obtain ⟨rfl, _⟩ := List.cons.inj hs
        exact h ⟨_, s, rfl, hd⟩
  · exact not_beginsComment_of_ne hc _

/-- Text that splits completely does so on a line of its own, before any other
text. -/
theorem Splits.exists_precede {s : List Char} {ts : List Token} (h : Splits s ts) :
    ∃ us, written us = s ++ ['\n'] ∧ brackets us = brackets ts ∧ ∀ rest, Precede us rest := by
  induction h with
  | nil =>
      have hfeed : ∀ rest, (Token.single '\n').Precedes rest := fun rest =>
        ⟨rfl, not_beginsComment_of_ne (by decide) rest⟩
      exact ⟨[.single '\n'], rfl, rfl, fun rest => ⟨hfeed rest, trivial⟩⟩
  | @literal q w s ts interior _ ih =>
      obtain ⟨us, hus, hsame, hprecede⟩ := ih
      exact ⟨.literal q w :: us, by simp [Token.text, hus], hsame, fun rest =>
        ⟨interior, hprecede rest⟩⟩
  | @lineComment w s ts line _ ih =>
      obtain ⟨us, hus, hsame, hprecede⟩ := ih
      exact ⟨.lineComment w :: us, by simp [Token.text, hus], hsame, fun rest =>
        ⟨line, hprecede rest⟩⟩
  | @lastComment w line =>
      exact ⟨[.lineComment w], by simp [Token.text], rfl, fun rest => ⟨line, trivial⟩⟩
  | @blockComment w s ts first _ ih =>
      obtain ⟨us, hus, hsame, hprecede⟩ := ih
      exact ⟨.blockComment w :: us, by simp [Token.text, hus], hsame, fun rest =>
        ⟨first, hprecede rest⟩⟩
  | @single c s ts quote comment _ ih =>
      obtain ⟨us, hus, hsame, hprecede⟩ := ih
      refine ⟨.single c :: us, by simp [Token.text, hus], ?_, fun rest =>
        ⟨⟨quote, ?_⟩, hprecede rest⟩⟩
      · simp only [brackets, List.filterMap_cons] at hsame ⊢
        rw [hsame]
      · rw [hus, List.append_assoc]
        exact not_beginsComment_append_newline comment rest

end SingleFile.Script.Source
