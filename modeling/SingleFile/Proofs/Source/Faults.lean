import SingleFile.Proofs.Source.Pieces

/-!
# Faults of source

Where a text stops being well formed is told by the tokens before that place and
the brackets they leave open.  There a literal or a block comment begins that does
not end, a closing bracket stands that is not the partner of the innermost open
one, or a bracket is opened that nothing closes, though everything behind it is
closed.

Main results:

- Theorem `settled`: a text that has no fault closes the brackets it opens.
- Theorem `FaultAt.leavesOpen`: a bracket without its partner is the innermost of
  those that the text leaves open.
-/

namespace SingleFile.Script.Source

/-! ## Faults -/

/-- What is wrong with a text that is read in code while the brackets are open, told
by the piece that it begins with. -/
inductive Fails (opened : List Bracket) : List Char → Fault → Prop where
  /-- A literal or a block comment does not end. -/
  | unended {s : List Char} {f : Fault} (piece : Unended s f) : Fails opened s f
  /-- A closing bracket is not the partner of the innermost open one. -/
  | unexpected {b : Bracket} {s : List Char} (top : ∀ outer, opened ≠ b :: outer) :
      Fails opened (b.closer :: s) (.unexpected b)
  /-- An opening bracket has no partner, and everything behind it has. -/
  | missingCloser {b : Bracket} {s : List Char} {ts : List Token} (rest : Splits s ts)
      (nested : WellNested (brackets ts)) : Fails opened (b.opener :: s) (.missingCloser b)

/-- The fault of a text that is read in code while the brackets are open, with what
stands before it in the text. -/
def FaultAbove (opened : List Bracket) (s : List Char) (f : Fault) (before : List Char) : Prop :=
  ∃ ts rest now, before = written ts ∧ s = before ++ rest ∧ Precede ts rest ∧
    Leaves opened (brackets ts) now ∧ Fails now rest f

/-- The fault of a source, with what stands before it: text that splits into tokens
and leaves brackets open, in the presence of which the rest fails. -/
def FaultAt (source : List Char) (f : Fault) (before : List Char) : Prop :=
  ∃ ts rest opened, before = written ts ∧ source = before ++ rest ∧ Precede ts rest ∧
    LeftOpen opened (brackets ts) ∧ Fails opened rest f

/-- The text splits completely and leaves the brackets open, innermost first. -/
def LeavesOpen (source : List Char) (opened : List Bracket) : Prop :=
  ∃ ts, Splits source ts ∧ LeftOpen opened (brackets ts)

/-- Text that fails at an unexpected bracket begins with it. -/
theorem Fails.eq_closer {opened : List Bracket} {s : List Char} {b : Bracket}
    (h : Fails opened s (.unexpected b)) :
    ∃ r, s = b.closer :: r ∧ ∀ outer, opened ≠ b :: outer := by
  generalize hf : Fault.unexpected b = f at h
  cases h with
  | unended piece => exact absurd hf.symm (piece.fault_ne.1 b)
  | @unexpected b' r top =>
      cases hf
      exact ⟨r, rfl, top⟩
  | missingCloser _ _ => cases hf

/-- Text that fails for a missing partner begins with the opening bracket. -/
theorem Fails.eq_opener {opened : List Bracket} {s : List Char} {b : Bracket}
    (h : Fails opened s (.missingCloser b)) :
    ∃ r ts, s = b.opener :: r ∧ Splits r ts ∧ WellNested (brackets ts) := by
  generalize hf : Fault.missingCloser b = f at h
  cases h with
  | unended piece => exact absurd hf.symm (piece.fault_ne.2 b)
  | unexpected _ => cases hf
  | @missingCloser b' r ts rest nested =>
      cases hf
      exact ⟨r, ts, rfl, rest, nested⟩

/-- A fault of a source is one above no open bracket. -/
theorem faultAt_iff_above {source before : List Char} {f : Fault} :
    FaultAt source f before ↔ FaultAbove [] source f before := by
  simp only [FaultAt, FaultAbove, leftOpen_iff_leaves]

/-- A fault stays one behind tokens that leave open what was open before it. -/
theorem FaultAbove.append {opened now : List Bracket} {ts : List Token} {s before : List Char}
    {f : Fault} (h : FaultAbove now s f before) (ht : Precede ts s)
    (hopen : Leaves opened (brackets ts) now) :
    FaultAbove opened (written ts ++ s) f (written ts ++ before) := by
  obtain ⟨us, rest, later, rfl, rfl, hus, hleaves, hfails⟩ := h
  refine ⟨ts ++ us, rest, later, by simp, by simp, precede_append_iff.mpr ⟨ht, hus⟩, ?_, hfails⟩
  rw [brackets_append]
  exact leaves_append_iff.mpr ⟨now, hopen, hleaves⟩

/-- A fault at the beginning of a text. -/
theorem Fails.faultAbove {opened : List Bracket} {s : List Char} {f : Fault}
    (h : Fails opened s f) : FaultAbove opened s f [] :=
  ⟨[], s, opened, rfl, rfl, trivial, .nil, h⟩

/-! ## Text without a fault -/

/-- The text splits completely and closes what it opens, and of the open brackets all
but the outer ones. -/
def ClosesTo (opened : List Bracket) (s : List Char) (outer : List Bracket) : Prop :=
  ∃ ts inner, Splits s ts ∧ opened = inner ++ outer ∧ Closes inner (brackets ts)

theorem Token.bracket?_cases (t : Token) :
    t.bracket? = none ∨ (∃ b : Bracket, t = .single b.opener) ∨
      ∃ b : Bracket, t = .single b.closer := by
  cases t with
  | single c =>
      cases hopener : Bracket.ofOpener? c with
      | some b => exact .inr (.inl ⟨b, by rw [Bracket.eq_opener_of_ofOpener? hopener]⟩)
      | none =>
          cases hcloser : Bracket.ofCloser? c with
          | some b => exact .inr (.inr ⟨b, by rw [Bracket.eq_closer_of_ofCloser? hcloser]⟩)
          | none => exact .inl (by simp [bracket?, isBracket, hopener, hcloser])
  | _ => exact .inl rfl

theorem brackets_cons_of_none {t : Token} (h : t.bracket? = none) (ts : List Token) :
    brackets (t :: ts) = brackets ts :=
  List.filterMap_cons_none h

theorem Token.length_text_pos (t : Token) : 0 < t.text.length := by
  cases t <;> simp [text]

/-- A token that is no bracket changes nothing about what is closed. -/
theorem ClosesTo.cons_of_none {opened outer : List Bracket} {t : Token} {s : List Char}
    (h : ClosesTo opened s outer) (ht : t.Precedes s) (hnone : t.bracket? = none) :
    ClosesTo opened (t.text ++ s) outer := by
  obtain ⟨ts, inner, hs, hopened, hclose⟩ := h
  exact ⟨t :: ts, inner, ht.splits hs, hopened, by rwa [brackets_cons_of_none hnone]⟩

/-- A closing bracket in front closes one more of the open brackets. -/
theorem ClosesTo.closer {opened outer : List Bracket} {s : List Char}
    (h : ClosesTo opened s outer) (b : Bracket) :
    ClosesTo (b :: opened) (b.closer :: s) outer := by
  obtain ⟨ts, inner, hs, rfl, hclose⟩ := h
  refine ⟨.single b.closer :: ts, b :: inner, (b.precedes_closer s).splits hs, rfl, ?_⟩
  rw [brackets_closer]
  exact .closer hclose

/-- An opening bracket before text that closes brackets is closed by it, or has no
partner. -/
theorem ClosesTo.opener {b : Bracket} {opened outer : List Bracket} {s : List Char}
    (h : ClosesTo (b :: opened) s outer) :
    ClosesTo opened (b.opener :: s) outer ∨ Fails opened (b.opener :: s) (.missingCloser b) := by
  obtain ⟨ts, inner, hs, hopened, hclose⟩ := h
  cases inner with
  | nil => exact .inr (.missingCloser hs (wellNested_iff_closes.mpr hclose))
  | cons b' inner =>
      obtain ⟨rfl, rfl⟩ := List.cons.inj hopened
      refine .inl ⟨.single b.opener :: ts, inner, (b.precedes_opener s).splits hs, rfl, ?_⟩
      rw [brackets_opener]
      exact .opener hclose

/-- The text has no fault and closes what it opens, or it has one. -/
def Settled (opened : List Bracket) (s : List Char) : Prop :=
  (∃ outer, ClosesTo opened s outer) ∨ ∃ f before, FaultAbove opened s f before

/-- A fault behind a token is one of the text. -/
theorem FaultAbove.cons {opened now : List Bracket} {t : Token} {s before : List Char}
    {f : Fault} (h : FaultAbove now s f before) (ht : t.Precedes s)
    (hopen : Leaves opened (brackets [t]) now) :
    FaultAbove opened (t.text ++ s) f (t.text ++ before) := by
  have hprecede : Precede [t] s := ⟨ht, trivial⟩
  simpa using h.append hprecede hopen

/-- What holds behind a token, whatever is open there, holds before it. -/
theorem Settled.cons {t : Token} {s : List Char} (ht : t.Precedes s)
    (h : ∀ opened, Settled opened s) (opened : List Bracket) : Settled opened (t.text ++ s) := by
  rcases t.bracket?_cases with hnone | ⟨b, rfl⟩ | ⟨b, rfl⟩
  · rcases h opened with ⟨outer, hclose⟩ | ⟨f, before, hfault⟩
    · exact .inl ⟨outer, hclose.cons_of_none ht hnone⟩
    · have hopen : Leaves opened (brackets [t]) opened := by
        rw [brackets_cons_of_none hnone]
        exact .nil
      exact .inr ⟨f, _, hfault.cons ht hopen⟩
  · rcases h (b :: opened) with ⟨outer, hclose⟩ | ⟨f, before, hfault⟩
    · rcases hclose.opener with hclose | hfails
      · exact .inl ⟨outer, hclose⟩
      · exact .inr ⟨_, _, hfails.faultAbove⟩
    · have hopen : Leaves opened (brackets [.single b.opener]) (b :: opened) := by
        rw [brackets_opener]
        exact .opener .nil
      exact .inr ⟨f, _, hfault.cons ht hopen⟩
  · by_cases htop : ∃ outer, opened = b :: outer
    · obtain ⟨below, rfl⟩ := htop
      rcases h below with ⟨outer, hclose⟩ | ⟨f, before, hfault⟩
      · exact .inl ⟨outer, hclose.closer b⟩
      · have hopen : Leaves (b :: below) (brackets [.single b.closer]) below := by
          rw [brackets_closer]
          exact .closer .nil
        exact .inr ⟨f, _, hfault.cons ht hopen⟩
    · have hfails : Fails opened (b.closer :: s) (.unexpected b) :=
        .unexpected fun outer h => htop ⟨outer, h⟩
      exact .inr ⟨_, _, hfails.faultAbove⟩

/-- A text that has no fault closes the brackets it opens. -/
theorem settled (opened : List Bracket) (s : List Char) : Settled opened s := by
  -- the induction is on the length, since a token is split off at once
  induction hn : s.length using Nat.strongRecOn generalizing opened s with
  | ind n ih =>
    cases s with
    | nil => exact .inl ⟨opened, [], [], .nil, rfl, .nil⟩
    | cons c s =>
        rcases exists_piece c s with ⟨t, r, htext, ht⟩ | ⟨w, htext, hw⟩ | ⟨f, hf⟩
        · have hlt : r.length < n := by
            have hlength := congrArg List.length htext
            have hpos := t.length_text_pos
            simp only [List.length_append] at hlength
            omega
          rw [htext]
          exact Settled.cons ht (fun opened => ih _ hlt opened r rfl) opened
        · rw [htext]
          exact .inl ⟨opened, [.lineComment w], [], .lastComment hw, rfl, .nil⟩
        · exact .inr ⟨f, [], (Fails.unended hf).faultAbove⟩

/-! ## Brackets without their partner -/

/-- A bracket without its partner is the innermost of those that the text leaves
open. -/
theorem FaultAt.leavesOpen {source before : List Char} {b : Bracket}
    (h : FaultAt source (.missingCloser b) before) :
    ∃ outer, LeavesOpen source (b :: outer) := by
  obtain ⟨ts, rest, outer, rfl, rfl, hts, hopen, hfails⟩ := h
  obtain ⟨s, us, rfl, hs, hnested⟩ := hfails.eq_opener
  refine ⟨outer, ts ++ .single b.opener :: us, hts.splits ?_, ?_⟩
  · exact (b.precedes_opener s).splits hs
  · rw [brackets_append, brackets_opener]
    exact ⟨brackets ts, brackets us, rfl, hopen, hnested⟩

/-- A bracket that tokens leave open is one of them. -/
theorem exists_single_of_leftOpen {inner outer : List Bracket} {b : Bracket} {ts : List Token}
    (h : LeftOpen (inner ++ b :: outer) (brackets ts)) :
    ∃ us vs, ts = us ++ .single b.opener :: vs ∧ LeftOpen outer (brackets us) ∧
      LeftOpen inner (brackets vs) := by
  obtain ⟨u, v, hword, hu, hv⟩ := h.exists_eq_append
  obtain ⟨us, rest, rfl, rfl, hrest⟩ := List.filterMap_eq_append_iff.mp hword
  obtain ⟨skipped, t, vs, rfl, hskipped, ht, rfl⟩ := List.filterMap_eq_cons_iff.mp hrest
  have hsingle : t = .single b.opener := by
    rcases t.bracket?_cases with hnone | ⟨b', rfl⟩ | ⟨b', rfl⟩
    · rw [hnone] at ht
      cases ht
    · cases b <;> cases b' <;> first | rfl | cases ht
    · cases b <;> cases b' <;> cases ht
  have hsame : brackets (us ++ skipped) = brackets us := by
    rw [brackets_append, brackets, brackets, List.filterMap_eq_nil_iff.mpr hskipped,
      List.append_nil]
  exact ⟨us ++ skipped, vs, by simp [hsingle], by rwa [hsame], hv⟩

end SingleFile.Script.Source
