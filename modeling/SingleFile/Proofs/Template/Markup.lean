import SingleFile.Proofs.Template.Margins
import SingleFile.Proofs.Template.Pieces

/-!
# Markup

Markup is written as a row of tokens: text, opening tags, tags that close themselves
and closing tags.  However the tokens follow each other, every tag is counted as what
it is: within one there is no angle, and what text lies between two of them has no
opening angle.  So the balance of a template is that of its tags, whatever their
names and their order.

Main results:

- Theorem `tagImbalance_written`: the balance of a row of tokens.
- Theorem `unmatchedTags_mem_faults_iff`: when the balance is reported as a fault.
- Theorem `markup_balance`: nested markup passes, the order of tokens has no part in
  it, and one tag more or less is reported.
-/

namespace SingleFile.Template

/-! ## Tokens -/

/-- The text may stand within a tag. -/
structure IsInner (s : List Char) : Prop where
  angle : '<' ∉ s
  closing : '>' ∉ s

/-- The character may stand right behind the angle of a tag that is not a closing one. -/
structure IsLead (c : Char) : Prop where
  slash : c ≠ '/'
  angle : c ≠ '<'
  closing : c ≠ '>'

/-- A character that may stand in front of the inside of a tag is one of it. -/
theorem IsInner.cons {c : Char} {s : List Char} (h : IsInner s) (hc : IsLead c) :
    IsInner (c :: s) where
  angle := by simp [Ne.symm hc.angle, h.angle]
  closing := by simp [Ne.symm hc.closing, h.closing]

/-- A token of markup. -/
inductive Token where
  /-- Text without an opening angle. -/
  | text (s : List Char) (angle : '<' ∉ s)
  /-- An opening tag; it does not end in a slash. -/
  | opening (c : Char) (s : List Char) (lead : IsLead c) (inner : IsInner s)
      (last : (c :: s).getLast? ≠ some '/')
  /-- A tag that closes itself. -/
  | selfClosing (c : Char) (s : List Char) (lead : IsLead c) (inner : IsInner s)
  /-- A closing tag; it is not empty and does not end in a slash. -/
  | closing (s : List Char) (inner : IsInner s) (ne_nil : s ≠ []) (last : s.getLast? ≠ some '/')

namespace Token

/-- The text of a token. -/
def written : Token → List Char
  | text s _ => s
  | opening c s _ _ _ => '<' :: c :: (s ++ ['>'])
  | selfClosing c s _ _ => '<' :: c :: (s ++ ['/', '>'])
  | closing s _ _ _ => '<' :: '/' :: (s ++ ['>'])

/-- The token is an opening tag. -/
def isOpening : Token → Bool
  | opening .. => true
  | _ => false

/-- The token is a tag that closes itself. -/
def isSelfClosing : Token → Bool
  | selfClosing .. => true
  | _ => false

/-- The token is a closing tag. -/
def isClosing : Token → Bool
  | closing .. => true
  | _ => false

end Token

/-- The text of a row of tokens. -/
def writtenTokens (ts : List Token) : List Char :=
  ts.flatMap Token.written

/-- The tokens are nested: every opening tag has a closing tag, and nested tokens in
between. -/
inductive Nested : List Token → Prop where
  | nil : Nested []
  | text {s : List Char} {angle : '<' ∉ s} {ts : List Token} (rest : Nested ts) :
      Nested (.text s angle :: ts)
  | selfClosing {c : Char} {s : List Char} {lead : IsLead c} {inner : IsInner s}
      {ts : List Token} (rest : Nested ts) : Nested (.selfClosing c s lead inner :: ts)
  | element {o e : Token} {ts us : List Token} (opens : o.isOpening = true)
      (closes : e.isClosing = true) (content : Nested ts) (rest : Nested us) :
      Nested (o :: (ts ++ e :: us))

/-! ## What is held by a tag -/

/-- With no other angle behind it, a piece holds what stands right behind its angle. -/
theorem angle_cons_infix_iff {r q : List Char} (hq : '<' ∉ q) :
    '<' :: r <:+: '<' :: q ↔ r <+: q := by
  rw [List.infix_cons_iff, List.cons_prefix_cons]
  constructor
  · rintro (⟨_, hprefix⟩ | hinside)
    · exact hprefix
    · exact absurd (hinside.subset List.mem_cons_self) hq
  · intro hprefix
    exact .inl ⟨rfl, hprefix⟩

/-- Between two angles an opening tag is all that does not begin with a slash. -/
theorem holdsOpening_angle_iff {q : List Char} (hq : '<' ∉ q) (hne : q ≠ []) :
    HoldsOpening ('<' :: q) ↔ q.head? ≠ some '/' := by
  simp only [holdsOpening_iff, angle_cons_infix_iff hq]
  cases q with
  | nil => exact absurd rfl hne
  | cons d q => simp [List.cons_prefix_cons]

/-- Between two angles a closing tag is all that begins with a slash and goes on. -/
theorem holdsClosing_angle_iff {q : List Char} (hq : '<' ∉ q) :
    HoldsClosing ('<' :: q) ↔ q.head? = some '/' ∧ 2 ≤ q.length := by
  simp only [holdsClosing_iff, angle_cons_infix_iff hq]
  rcases q with - | ⟨d, - | ⟨e, q⟩⟩
  · simp
  · simp [List.cons_prefix_cons]
  · simp [List.cons_prefix_cons, eq_comm]

/-- Between two angles a tag that closes itself is all that ends in a slash. -/
theorem holdsSelfClosing_angle_iff {q : List Char} (hne : q ≠ []) :
    HoldsSelfClosing ('<' :: q) ↔ q.getLast? = some '/' := by
  cases q with
  | nil => exact absurd rfl hne
  | cons d q => simp [HoldsSelfClosing, List.getLast?_cons_cons]

/-- What stands between two angles decides what it adds to the balance. -/
theorem tagImbalance_angle_append {q : List Char} (hq : IsInner q) (hne : q ≠ [])
    (s : List Char) :
    tagImbalance ('<' :: (q ++ '>' :: s)) =
      tagImbalance s + (if q.head? = some '/' then 0 else 1) -
        (if q.getLast? = some '/' then 1 else 0) -
          (if q.head? = some '/' ∧ 2 ≤ q.length then 1 else 0) := by
  have hp : '>' ∉ '<' :: q := by simp [hq.closing]
  have hend : ('<' :: q).getLast? ≠ some '<' := by
    intro hlast
    obtain ⟨d, v, rfl⟩ := List.exists_cons_of_ne_nil hne
    rw [List.getLast?_cons_cons] at hlast
    exact hq.angle (List.mem_of_getLast? hlast)
  have hopen := openTags_piece_append hp s
  have hself := selfClosingTags_piece_append hp s
  have hclose := closeTags_piece_append hp s
  rw [if_neg hend] at hopen
  simp only [holdsOpening_angle_iff hq.angle hne, ne_eq, ite_not, List.cons_append] at hopen
  simp only [holdsSelfClosing_angle_iff hne, List.cons_append] at hself
  simp only [holdsClosing_angle_iff hq.angle, List.cons_append] at hclose
  rw [tagImbalance, tagImbalance, hopen, hself, hclose]
  split <;> split <;> split <;> omega

/-! ## What a token adds -/

/-- The part of a token in the balance. -/
theorem tagImbalance_written_append (t : Token) (s : List Char) :
    tagImbalance (t.written ++ s) =
      tagImbalance s + (if t.isOpening then 1 else 0) - (if t.isClosing then 1 else 0) := by
  cases t with
  | text u hu =>
      simp [Token.written, Token.isOpening, Token.isClosing, tagImbalance,
        openTags_append_of_outside hu, closeTags_append_of_outside hu,
        selfClosingTags_append_of_outside hu]
  | opening c u hlead hinner hlast =>
      have hadd := tagImbalance_angle_append (hinner.cons hlead) (List.cons_ne_nil c u) s
      simpa [Token.written, Token.isOpening, Token.isClosing, hlead.slash, hlast] using hadd
  | selfClosing c u hlead hinner =>
      have hslash : IsInner (u ++ ['/']) := ⟨by simp [hinner.angle], by simp [hinner.closing]⟩
      have hend : (c :: (u ++ ['/'])).getLast? = some '/' := by
        rw [← List.cons_append, List.getLast?_concat]
      have hadd := tagImbalance_angle_append (hslash.cons hlead) (List.cons_ne_nil c _) s
      rw [if_pos hend] at hadd
      simpa [Token.written, Token.isOpening, Token.isClosing, hlead.slash] using hadd
  | closing u hinner hne hlast =>
      have hinner' : IsInner ('/' :: u) := ⟨by simp [hinner.angle], by simp [hinner.closing]⟩
      have hend : ('/' :: u).getLast? ≠ some '/' := by
        obtain ⟨d, v, rfl⟩ := List.exists_cons_of_ne_nil hne
        rwa [List.getLast?_cons_cons]
      have hhead : ('/' :: u).head? = some '/' := rfl
      have hlength : 2 ≤ ('/' :: u).length := by
        have hpos := List.length_pos_of_ne_nil hne
        simp only [List.length_cons]
        omega
      have hadd := tagImbalance_angle_append hinner' (List.cons_ne_nil '/' u) s
      rw [if_pos hhead, if_neg hend, if_pos ⟨hhead, hlength⟩] at hadd
      simpa [Token.written, Token.isOpening, Token.isClosing] using hadd

/-- The balance of a row of tokens is the number of opening tags less the number of
closing tags. -/
theorem tagImbalance_written (ts : List Token) :
    tagImbalance (writtenTokens ts) =
      (ts.countP Token.isOpening : Int) - ts.countP Token.isClosing := by
  induction ts with
  | nil => rfl
  | cons t ts ih =>
      have hcons : writtenTokens (t :: ts) = t.written ++ writtenTokens ts := List.flatMap_cons
      rw [hcons, tagImbalance_written_append, ih, List.countP_cons, List.countP_cons]
      split <;> split <;> omega

/-! ## Nesting -/

theorem Token.isClosing_of_isOpening {t : Token} (h : t.isOpening = true) :
    t.isClosing = false := by
  cases t with
  | opening => rfl
  | _ => cases h

theorem Token.isOpening_of_isClosing {t : Token} (h : t.isClosing = true) :
    t.isOpening = false := by
  cases t with
  | closing => rfl
  | _ => cases h

/-- Nested tokens have as many opening tags as closing tags. -/
theorem Nested.countP_eq {ts : List Token} (h : Nested ts) :
    ts.countP Token.isOpening = ts.countP Token.isClosing := by
  induction h with
  | nil => rfl
  | text _ ih => simpa [List.countP_cons, Token.isOpening, Token.isClosing] using ih
  | selfClosing _ ih => simpa [List.countP_cons, Token.isOpening, Token.isClosing] using ih
  | element hopens hcloses _ _ ihcontent ihrest =>
      simp only [List.countP_cons, List.countP_append, hopens, hcloses,
        Token.isClosing_of_isOpening hopens, Token.isOpening_of_isClosing hcloses, ihcontent,
        ihrest]
      simp
      omega

/-! ## The verdict -/

/-- A template is reported for its tags exactly when these are not balanced. -/
theorem unmatchedTags_mem_faults_iff (settings : Settings) (template : String) :
    Fault.unmatchedTags ∈ faults settings (.text template) ↔ tagImbalance template.toList ≠ 0 := by
  rw [faults, textFaults]
  by_cases hblank : Text.isBlankString template = true
  · have hzero : tagImbalance template.toList = 0 := by
      have hnil : Text.isBlankText [] = true := rfl
      have hsame := tagImbalance_blank_append_blank hblank hnil []
      rwa [List.append_nil, List.append_nil] at hsame
    simp [hblank, hzero]
  · have hdirectives : Fault.unmatchedTags ∉ directiveFaults settings template := by
      unfold directiveFaults
      split <;> simp
    by_cases hzero : tagImbalance template.toList = 0
    · simp [hblank, tagFaults, hzero, hdirectives]
    · simp [hblank, tagFaults, hzero]

/-- The template that a row of tokens makes is reported for its tags. -/
def IsReported (settings : Settings) (ts : List Token) : Prop :=
  Fault.unmatchedTags ∈ faults settings (.text (String.ofList (writtenTokens ts)))

/-- Tags are reported when more or fewer of them open than close. -/
theorem isReported_iff {settings : Settings} {ts : List Token} :
    IsReported settings ts ↔ ts.countP Token.isOpening ≠ ts.countP Token.isClosing := by
  rw [IsReported, unmatchedTags_mem_faults_iff, String.toList_ofList, tagImbalance_written]
  omega

/-- One tag more in a row of tokens changes the balance. -/
theorem countP_insert_ne {us vs : List Token} {t : Token}
    (ht : t.isOpening = true ∨ t.isClosing = true)
    (h : (us ++ vs).countP Token.isOpening = (us ++ vs).countP Token.isClosing) :
    (us ++ t :: vs).countP Token.isOpening ≠ (us ++ t :: vs).countP Token.isClosing := by
  simp only [List.countP_append, List.countP_cons] at h ⊢
  rcases ht with ht | ht
  · rw [ht, Token.isClosing_of_isOpening ht]
    simp
    omega
  · rw [ht, Token.isOpening_of_isClosing ht]
    simp
    omega

/-- The balance of a row of tokens is the number of its opening tags less the number
of its closing tags.  So nested markup is not reported for its tags; in another order
the same tokens get the same verdict; and one opening or closing tag more or less,
wherever it stands, makes balanced tokens be reported. -/
theorem markup_balance (settings : Settings) (ts : List Token) :
    tagImbalance (writtenTokens ts) =
      (ts.countP Token.isOpening : Int) - ts.countP Token.isClosing ∧
    (Nested ts → ¬ IsReported settings ts) ∧
    (∀ us, ts.Perm us → (IsReported settings us ↔ IsReported settings ts)) ∧
    (¬ IsReported settings ts → ∀ us vs t, t.isOpening = true ∨ t.isClosing = true →
      (ts = us ++ vs → IsReported settings (us ++ t :: vs)) ∧
      (ts = us ++ t :: vs → IsReported settings (us ++ vs))) := by
  simp only [isReported_iff, ne_eq, not_not]
  refine ⟨tagImbalance_written ts, Nested.countP_eq, ?_, ?_⟩
  · intro us hperm
    rw [hperm.countP_eq, hperm.countP_eq]
  · intro hbalanced us vs t ht
    constructor
    · rintro rfl
      exact countP_insert_ne ht hbalanced
    · rintro rfl hrest
      exact countP_insert_ne ht hrest hbalanced

end SingleFile.Template
