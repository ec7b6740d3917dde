import SingleFile.Proofs.Template.Margins

/-!
# Templates put together

A piece of a template that ends in a closing angle is checked by itself.  Behind the
closing angle every count of tags stands outside a tag, and no directive goes on.
There is one exception: an angle takes the closing angle right behind it for the
first character of an opening tag, so that the tag goes on into the next piece.

Main results:

- Theorem `tagImbalance_append`: the balance of two pieces.
- Theorem `directives_append`: the directives of two pieces.
- Theorem `checks_joined`: the verdict on a template from the checks of its pieces.
-/

namespace SingleFile.Template

/-- The piece ends in a closing angle that does not stand right behind an angle. -/
def IsClosed (s : List Char) : Prop :=
  s.getLast? = some '>' ∧ ¬ ['<', '>'] <:+ s

instance (s : List Char) : Decidable (IsClosed s) :=
  inferInstanceAs (Decidable (s.getLast? = some '>' ∧ ¬ ['<', '>'] <:+ s))

/-- A text is closed if it ends in an angle that closes something. -/
theorem isClosed_iff {s : List Char} :
    IsClosed s ↔ ∃ u, s = u ++ ['>'] ∧ u.getLast? ≠ some '<' := by
  rw [IsClosed, List.getLast?_eq_some_iff]
  constructor
  · rintro ⟨⟨u, rfl⟩, hangle⟩
    refine ⟨u, rfl, ?_⟩
    intro hlast
    obtain ⟨v, rfl⟩ := List.getLast?_eq_some_iff.mp hlast
    exact hangle ⟨v, by simp⟩
  · rintro ⟨u, rfl, hlast⟩
    refine ⟨⟨u, rfl⟩, ?_⟩
    rintro ⟨v, hv⟩
    have hsplit : (v ++ ['<']) ++ ['>'] = u ++ ['>'] := by simpa using hv
    obtain ⟨hu, _⟩ := List.append_inj' hsplit rfl
    apply hlast
    rw [← hu, List.getLast?_concat]

/-! ## Tags -/

/-- A count of opening tags has just begun one only behind an angle. -/
theorem foldl_openMode_eq_begun {u : List Char} {m : OpenMode} (hm : m ≠ .begun)
    (h : u.foldl OpenMode.next m = .begun) : u.getLast? = some '<' := by
  rcases List.eq_nil_or_concat u with rfl | ⟨v, c, rfl⟩
  · exact absurd h hm
  · rw [List.concat_eq_append] at h ⊢
    rw [List.foldl_append, List.foldl_cons, List.foldl_nil] at h
    rw [List.getLast?_concat]
    cases hv : v.foldl OpenMode.next m with
    | outside =>
        by_cases hc : c = '<'
        · rw [hc]
        · simp [hv, OpenMode.next, hc] at h
    | begun =>
        by_cases hc : c = '/'
        · simp [hv, OpenMode.next, hc] at h
        · simp [hv, OpenMode.next, hc] at h
    | inside =>
        by_cases hc : c = '>'
        · simp [hv, OpenMode.next, hc] at h
        · simp [hv, OpenMode.next, hc] at h

/-- Behind a closing angle a count of opening tags stands outside a tag. -/
theorem openTags_append {a : List Char} (h : IsClosed a) (b : List Char) :
    openTags (a ++ b) = openTags a + openTags b := by
  obtain ⟨u, rfl, hlast⟩ := isClosed_iff.mp h
  have hmode : (u ++ ['>']).foldl OpenMode.next .outside = .outside := by
    rw [List.foldl_append, List.foldl_cons, List.foldl_nil]
    cases hu : u.foldl OpenMode.next .outside with
    | outside => rfl
    | begun => exact absurd (foldl_openMode_eq_begun (by decide) hu) hlast
    | inside => rfl
  rw [openTags, openTags_counts.append, hmode, openTags, openTags]

/-- Behind a closing angle a count of closing tags stands outside a tag. -/
theorem closeTags_append {a : List Char} (h : a.getLast? = some '>') (b : List Char) :
    closeTags (a ++ b) = closeTags a + closeTags b := by
  obtain ⟨u, rfl⟩ := List.getLast?_eq_some_iff.mp h
  have hmode : (u ++ ['>']).foldl CloseMode.next .outside = .outside := by
    rw [List.foldl_append, List.foldl_cons, List.foldl_nil]
    cases u.foldl CloseMode.next .outside <;> rfl
  rw [closeTags, closeTags_counts.append, hmode, closeTags, closeTags]

/-- Behind a closing angle a count of tags that close themselves stands outside a tag. -/
theorem selfClosingTags_append {a : List Char} (h : a.getLast? = some '>') (b : List Char) :
    selfClosingTags (a ++ b) = selfClosingTags a + selfClosingTags b := by
  obtain ⟨u, rfl⟩ := List.getLast?_eq_some_iff.mp h
  have hmode : (u ++ ['>']).foldl SelfMode.next .outside = .outside := by
    rw [List.foldl_append, List.foldl_cons, List.foldl_nil]
    cases u.foldl SelfMode.next .outside <;> rfl
  rw [selfClosingTags, selfClosingTags_counts.append, hmode, selfClosingTags, selfClosingTags]

/-- The balance of two pieces is the sum of theirs. -/
theorem tagImbalance_append {a : List Char} (h : IsClosed a) (b : List Char) :
    tagImbalance (a ++ b) = tagImbalance a + tagImbalance b := by
  rw [tagImbalance, tagImbalance, tagImbalance, openTags_append h, closeTags_append h.1,
    selfClosingTags_append h.1]
  omega

/-- An angle takes the closing angle behind it along into the next piece. -/
example : tagImbalance "<>".toList + tagImbalance "x>".toList = 0 ∧
    tagImbalance "<>x>".toList = 1 := by
  decide

/-! ## Directives -/

/-- No directive goes on in a closing angle. -/
theorem isBorder_closing {marker : List Char} (hm : '>' ∉ marker) (b : List Char) :
    IsBorder marker ('>' :: b) := by
  constructor
  · intro c hc
    obtain rfl := Option.some.inj hc
    decide
  · intro c hc
    obtain rfl := Option.some.inj hc
    decide
  · have hblank : Text.isBlank '>' = false := by decide
    rw [assignment?_cons]
    simp [hblank]
  · intro s u c hc hu hwhole
    cases u with
    | nil => rfl
    | cons d u =>
        obtain ⟨rfl, _⟩ := List.cons_prefix_cons.mp hu
        have hmem : '>' ∈ marker ++ [c] := by
          rw [← hwhole]
          simp
        rcases List.mem_append.mp hmem with hmarker | hletter
        · exact absurd hmarker hm
        · rw [← List.mem_singleton.mp hletter] at hc
          cases hc

/-- Behind a closing angle directives are searched as at the beginning of a text. -/
theorem directivesFrom_closing {marker : List Char} (hm : '>' ∉ marker) (b : Option Char)
    (s : List Char) : directivesFrom marker b ('>' :: s) = directives marker s := by
  have hnone : directiveAt? marker ('>' :: s) = none := directiveAt?_of_not_mem hm (by decide) s
  have hfree : mayFollow (some '>') = mayFollow none := by decide
  rw [directivesFrom_of_eq_none hnone, directivesFrom_congr hfree, directives]

/-- The directives of two pieces are those of the first and then those of the second. -/
theorem directives_append {marker : List Char} (hm : '>' ∉ marker) {a : List Char}
    (h : a.getLast? = some '>') (b : List Char) :
    directives marker (a ++ b) = directives marker a ++ directives marker b := by
  obtain ⟨u, rfl⟩ := List.getLast?_eq_some_iff.mp h
  have hparts : ∀ t, directives marker (u ++ '>' :: t) =
      directives marker u ++ directives marker t := by
    intro t
    rw [directives, directivesFrom_append (isBorder_closing hm t), directivesFrom_closing hm,
      directives.eq_1 marker u]
  have hnil : directives marker [] = [] := by rw [directives, directivesFrom]
  rw [List.append_assoc, List.singleton_append, hparts, hparts, hnil, List.append_nil]

/-- The bad directives of two texts are found apart when the first ends in an angle. -/
theorem badDirectives_append {settings : Settings} (hm : '>' ∉ settings.directivePrefix.toList)
    {a : String} (h : a.toList.getLast? = some '>') (b : String) :
    badDirectives settings (a ++ b) = badDirectives settings a ++ badDirectives settings b := by
  simp only [badDirectives, invalidDirectives, String.toList_append, directives_append hm h,
    List.filter_append, List.map_append]

/-! ## The verdict -/

/-- The faults of a template that is not blank, from its balance and the directives in
it that lack their values. -/
def verdict (imbalance : Int) (directives : List String) : List Fault :=
  (if imbalance = 0 then [] else [.unmatchedTags]) ++
    match directives with
    | [] => []
    | ds => [.invalidDirectives ds]

/-- A template that is not blank is judged by its tags and directives. -/
theorem faults_eq_verdict {t : String} (h : Text.isBlankString t = false) (settings : Settings) :
    faults settings (.text t) = verdict (tagImbalance t.toList) (badDirectives settings t) := by
  simp only [faults, textFaults, h, tagFaults, directiveFaults, verdict]
  rfl

/-- A text that ends in an angle is not blank, whatever follows. -/
theorem isBlankString_of_closed {a : String} (h : a.toList.getLast? = some '>') (b : String) :
    Text.isBlankString (a ++ b) = false := by
  rw [Bool.eq_false_iff]
  intro hblank
  have hmem : '>' ∈ (a ++ b).toList := by
    rw [String.toList_append]
    exact List.mem_append_left _ (List.mem_of_getLast? h)
  exact not_mem_of_isBlankText (by decide) hblank hmem

/-- The balances of pieces and of a last one, added up. -/
def totalImbalance (pieces : List String) (last : String) : Int :=
  pieces.foldr (fun p n => tagImbalance p.toList + n) (tagImbalance last.toList)

/-- The checks of closed pieces and a last one. -/
theorem checks_foldr_append {settings : Settings} (hm : '>' ∉ settings.directivePrefix.toList)
    {pieces : List String} (h : ∀ p ∈ pieces, IsClosed p.toList) (b : String) :
    tagImbalance (pieces.foldr (· ++ ·) b).toList = totalImbalance pieces b ∧
    badDirectives settings (pieces.foldr (· ++ ·) b) =
      pieces.flatMap (badDirectives settings) ++ badDirectives settings b := by
  induction pieces with
  | nil =>
      constructor
      · rfl
      · simp
  | cons p pieces ih =>
      have hp : IsClosed p.toList := h p List.mem_cons_self
      obtain ⟨hbalance, hlist⟩ := ih fun q hq => h q (List.mem_cons_of_mem p hq)
      rw [List.foldr_cons]
      constructor
      · rw [String.toList_append, tagImbalance_append hp, hbalance]
        rfl
      · rw [badDirectives_append hm hp.1, hlist, List.flatMap_cons, List.append_assoc]

/-- Under a prefix without a closing angle, a piece that is closed is checked by itself:
whatever comes behind it, the balances add up, and the directives that lack their values
are listed piece by piece.  So the verdict on a template of closed pieces and a last one
depends on nothing but the sum of the balances and the joined lists. -/
theorem checks_joined (settings : Settings) (hm : '>' ∉ settings.directivePrefix.toList) :
    (∀ a b : String, IsClosed a.toList →
      tagImbalance (a ++ b).toList = tagImbalance a.toList + tagImbalance b.toList ∧
      badDirectives settings (a ++ b) = badDirectives settings a ++ badDirectives settings b) ∧
    (∀ (pieces : List String) (b : String), pieces ≠ [] → (∀ p ∈ pieces, IsClosed p.toList) →
      faults settings (.text (pieces.foldr (· ++ ·) b)) =
        verdict (totalImbalance pieces b)
          (pieces.flatMap (badDirectives settings) ++ badDirectives settings b)) := by
  constructor
  · intro a b ha
    constructor
    · rw [String.toList_append, tagImbalance_append ha]
    · exact badDirectives_append hm ha.1 b
  · intro pieces b hne hclosed
    obtain ⟨hbalance, hlist⟩ := checks_foldr_append hm hclosed b
    have hblank : Text.isBlankString (pieces.foldr (· ++ ·) b) = false := by
      obtain ⟨p, rest, rfl⟩ := List.exists_cons_of_ne_nil hne
      exact isBlankString_of_closed (hclosed p List.mem_cons_self).1 _
    rw [faults_eq_verdict hblank, hbalance, hlist]

/-- A directive without its value in one piece, and the closing tag in the next. -/
theorem checks_joined_paragraph :
    '>' ∉ ({} : Settings).directivePrefix.toList ∧
    (∀ p ∈ ["<p v-if>", "<br/>"], IsClosed p.toList) ∧
    faults {} (.text "<p v-if><br/></p>") = [.invalidDirectives ["v-if"]] := by
  have hm : '>' ∉ ({} : Settings).directivePrefix.toList := by decide
  have hclosed : ∀ p ∈ ["<p v-if>", "<br/>"], IsClosed p.toList := by decide
  refine ⟨hm, hclosed, ?_⟩
  have hfaults := (checks_joined {} hm).2 ["<p v-if>", "<br/>"] "</p>" (by simp) hclosed
  have hbalance : totalImbalance ["<p v-if>", "<br/>"] "</p>" = 0 := by decide
  have hlist : ["<p v-if>", "<br/>"].flatMap (badDirectives {}) ++ badDirectives {} "</p>" =
      ["v-if"] := by
    decide +kernel
  rw [hbalance, hlist] at hfaults
  exact hfaults

end SingleFile.Template
