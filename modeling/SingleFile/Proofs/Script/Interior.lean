import SingleFile.Proofs.Script.Occurrence

/-!
# The interior of a method table

The interior of a method table ends at the brace that matches the table's own.  The
brace is found by counting; what is found can be told without counting: a text that
opens and closes as many braces as each other and never closes one too many, with a
closing brace behind it.  At a given place there is at most one such text.

Main results:

- Theorem `balanced_eq_some_iff`: what a count of braces from some depth stops at.
- Theorem `Balances.unique`: a text begins with at most one balanced text before a
  closing brace.
- Theorem `methodsInterior_balanced`: the interior is the balanced text behind the
  first header, and there is none exactly when nothing behind it balances.
-/

namespace SingleFile.Script

open SingleFile.Text (isBlankText)

/-! ## Balanced text -/

/-- The text opens and closes as many braces, and no beginning of it closes more
than it opens. -/
def Balances (b : List Char) : Prop :=
  b.count '{' = b.count '}' ∧ ∀ p, p <+: b → p.count '}' ≤ p.count '{'

/-- Inside as many open braces as the depth says, the text closes all of them and
its own, and no beginning of it closes more than are open. -/
def BalancesFrom (depth : Nat) (b : List Char) : Prop :=
  depth + b.count '{' = b.count '}' ∧ ∀ p, p <+: b → p.count '}' ≤ depth + p.count '{'

/-- A balanced text is balanced at depth zero. -/
theorem balances_iff {b : List Char} : Balances b ↔ BalancesFrom 0 b := by
  simp [Balances, BalancesFrom]

/-- A beginning of a text is empty, or begins as the text does. -/
theorem forall_prefix_cons_iff {c : Char} {b : List Char} {P : List Char → Prop} :
    (∀ p, p <+: c :: b → P p) ↔ P [] ∧ ∀ p, p <+: b → P (c :: p) := by
  constructor
  · intro h
    exact ⟨h [] List.nil_prefix, fun p hp => h (c :: p) ((List.prefix_cons_inj c).mpr hp)⟩
  · rintro ⟨hnil, hcons⟩ p hp
    rcases List.prefix_cons_iff.mp hp with rfl | ⟨q, rfl, hq⟩
    · exact hnil
    · exact hcons q hq

/-- The empty text is balanced at depth zero alone. -/
theorem balancesFrom_nil_iff {depth : Nat} : BalancesFrom depth [] ↔ depth = 0 := by
  simp [BalancesFrom]

/-- An opening brace adds to the depth. -/
theorem balancesFrom_opener_iff {depth : Nat} {b : List Char} :
    BalancesFrom depth ('{' :: b) ↔ BalancesFrom (depth + 1) b := by
  have hne : '{' ≠ '}' := by decide
  have hdepth : ∀ n, depth + 1 + n = depth + n + 1 := fun n => by omega
  simp only [BalancesFrom, forall_prefix_cons_iff, List.count_cons_self,
    List.count_cons_of_ne hne, List.count_nil, Nat.zero_le, true_and, hdepth, ← Nat.add_assoc]

/-- A closing brace takes from the depth. -/
theorem balancesFrom_closer_iff {depth : Nat} {b : List Char} :
    BalancesFrom (depth + 1) ('}' :: b) ↔ BalancesFrom depth b := by
  have hne : '}' ≠ '{' := by decide
  have hdepth : ∀ n, depth + 1 + n = depth + n + 1 := fun n => by omega
  simp only [BalancesFrom, forall_prefix_cons_iff, List.count_cons_self,
    List.count_cons_of_ne hne, List.count_nil, Nat.zero_le, true_and, hdepth,
    Nat.add_le_add_iff_right, Nat.add_right_cancel_iff]

/-- With no brace open, none can be closed. -/
theorem not_balancesFrom_zero_closer (b : List Char) : ¬ BalancesFrom 0 ('}' :: b) := by
  rintro ⟨_, hprefix⟩
  have hfirst := hprefix ['}'] ((List.prefix_cons_inj '}').mpr List.nil_prefix)
  exact absurd hfirst (by decide)

/-- A character that is no brace leaves the depth. -/
theorem balancesFrom_cons_iff {depth : Nat} {c : Char} (hopener : c ≠ '{') (hcloser : c ≠ '}')
    {b : List Char} : BalancesFrom depth (c :: b) ↔ BalancesFrom depth b := by
  simp only [BalancesFrom, forall_prefix_cons_iff, List.count_cons_of_ne hopener,
    List.count_cons_of_ne hcloser, List.count_nil, Nat.zero_le, true_and]

/-! ## Counting -/

/-- A closing brace ends the empty text, or a text that begins with the character
before it. -/
theorem balancesFrom_and_split_iff {depth : Nat} {c : Char} {s b : List Char} :
    (BalancesFrom depth b ∧ ∃ after, c :: s = b ++ '}' :: after) ↔
      (b = [] ∧ c = '}' ∧ depth = 0) ∨
        ∃ t, b = c :: t ∧ BalancesFrom depth (c :: t) ∧ ∃ after, s = t ++ '}' :: after := by
  cases b with
  | nil => simp [balancesFrom_nil_iff, and_comm]
  | cons d b =>
      constructor
      · rintro ⟨hb, after, hs⟩
        obtain ⟨rfl, htail⟩ := List.cons.inj hs
        exact .inr ⟨b, rfl, hb, after, htail⟩
      · rintro (⟨hnil, _⟩ | ⟨t, heq, ht, after, rfl⟩)
        · cases hnil
        · cases heq
          exact ⟨ht, after, rfl⟩

/-- A count of braces stops behind the text that balances the depth it began at. -/
theorem balanced_eq_some_iff {depth : Nat} {s b : List Char} :
    balanced depth s = some b ↔ BalancesFrom depth b ∧ ∃ after, s = b ++ '}' :: after := by
  have hne : '}' ≠ '{' := by decide
  induction s generalizing depth b with
  | nil => simp [balanced]
  | cons c s ih =>
      have hread : ∀ d, (balanced d s).map (c :: ·) = some b ↔
          ∃ t, b = c :: t ∧ BalancesFrom d t ∧ ∃ after, s = t ++ '}' :: after := by
        intro d
        rw [Option.map_eq_some_iff]
        constructor
        · rintro ⟨t, ht, rfl⟩
          exact ⟨t, rfl, ih.mp ht⟩
        · rintro ⟨t, rfl, ht⟩
          exact ⟨t, ih.mpr ht, rfl⟩
      rw [balancesFrom_and_split_iff]
      by_cases hopener : c = '{'
      · subst hopener
        simp only [balanced, if_true, hread, balancesFrom_opener_iff, hne.symm, false_and,
          and_false, false_or]
      · by_cases hcloser : c = '}'
        · subst hcloser
          cases depth with
          | zero =>
              simp only [balanced, hne, if_false, if_true, not_balancesFrom_zero_closer,
                false_and, and_false, exists_false, or_false, and_true, Option.some.injEq]
              exact eq_comm
          | succ depth =>
              simp [balanced, hne, hread, balancesFrom_closer_iff]
        · simp only [balanced, hopener, hcloser, if_false, hread,
            balancesFrom_cons_iff hopener hcloser, false_and, and_false, false_or]

/-- A text begins with at most one balanced text before a closing brace. -/
theorem Balances.unique {b b' after after' : List Char} (h : Balances b) (h' : Balances b')
    (heq : b ++ '}' :: after = b' ++ '}' :: after') : b = b' := by
  have hb := balanced_eq_some_iff.mpr ⟨balances_iff.mp h, after, rfl⟩
  have hb' := balanced_eq_some_iff.mpr ⟨balances_iff.mp h', after', heq⟩
  rw [hb, Option.some.injEq] at hb'
  exact hb'

/-! ## The interior -/

/-- The text is the head of a method table, up to the brace. -/
def OpensTable (t : List Char) : Prop :=
  ∃ g₁ g₂, isBlankText g₁ = true ∧ isBlankText g₂ = true ∧
    t = "methods".toList ++ (g₁ ++ ':' :: (g₂ ++ ['{']))

theorem spells_methodsHeader : methodsHeader.Spells = OpensTable := by
  funext t
  simp only [methodsHeader, Phrase.spells_words_iff, Phrase.spells_word_iff, eq_iff_iff]
  constructor
  · rintro ⟨g₁, _, h₁, ⟨g₂, _, h₂, rfl, rfl⟩, rfl⟩
    exact ⟨g₁, g₂, h₁, h₂, rfl⟩
  · rintro ⟨g₁, g₂, h₁, h₂, rfl⟩
    exact ⟨g₁, _, h₁, ⟨g₂, _, h₂, rfl, rfl⟩, rfl⟩

theorem isVisible_methodsHeader : methodsHeader.IsVisible := by decide

/-- The interior balances, and stands between the first header and a closing
brace. -/
theorem methodsInterior?_eq_some_iff {script b : List Char} :
    methodsInterior? script = some b ↔
      Balances b ∧ ∃ before after, methodsHeader.OccursFirst script before (b ++ '}' :: after) := by
  simp only [methodsInterior?, Option.bind_eq_bind, Option.bind_eq_some_iff, Prod.exists,
    balanced_eq_some_iff, Phrase.cut_eq_some_iff isVisible_methodsHeader, ← balances_iff]
  constructor
  · rintro ⟨before, rest, hfirst, hb, after, rfl⟩
    exact ⟨hb, before, after, hfirst⟩
  · rintro ⟨hb, before, after, hfirst⟩
    exact ⟨before, _, hfirst, hb, after, rfl⟩

/-- A script without an interior has no header, or nothing behind the first one
balances. -/
theorem methodsInterior?_eq_none_iff {script : List Char} :
    methodsInterior? script = none ↔
      (∀ before rest, ¬ methodsHeader.Occurs script before rest) ∨
        ∃ before rest, methodsHeader.OccursFirst script before rest ∧
          ∀ b after, rest = b ++ '}' :: after → ¬ Balances b := by
  constructor
  · intro hnone
    cases hcut : methodsHeader.cut script with
    | none => exact .inl ((Phrase.cut_eq_none_iff_not_occurs isVisible_methodsHeader).mp hcut)
    | some cut =>
        have hfirst := (Phrase.cut_eq_some_iff isVisible_methodsHeader).mp hcut
        refine .inr ⟨cut.1, cut.2, hfirst, fun b after hrest hb => ?_⟩
        rw [hrest] at hfirst
        have hsome := methodsInterior?_eq_some_iff.mpr ⟨hb, cut.1, after, hfirst⟩
        rw [hnone] at hsome
        cases hsome
  · intro h
    cases hinterior : methodsInterior? script with
    | none => rfl
    | some b =>
        obtain ⟨hb, before, after, hfirst⟩ := methodsInterior?_eq_some_iff.mp hinterior
        rcases h with hnever | ⟨before', rest', hfirst', hbalances⟩
        · exact absurd hfirst.occurs (hnever before _)
        · obtain ⟨_, rfl⟩ := hfirst.unique isVisible_methodsHeader hfirst'
          exact absurd hb (hbalances b after rfl)

/-- The interior of a method table is the balanced text between the first header
and a closing brace: there is never more than one, and none is found exactly when
there is no header, or nothing behind the first one balances.  So a balanced text
that is written into the first table is found whole. -/
theorem methodsInterior_balanced (script : List Char) :
    (∀ b, methodsInterior? script = some b ↔
      Balances b ∧ ∃ before after, StandsFirst OpensTable script before (b ++ '}' :: after)) ∧
    (∀ b b' after after', Balances b → Balances b' →
      b ++ '}' :: after = b' ++ '}' :: after' → b = b') ∧
    (methodsInterior? script = none ↔
      (∀ before rest, ¬ StandsIn OpensTable script before rest) ∨
        ∃ before rest, StandsFirst OpensTable script before rest ∧
          ∀ b after, rest = b ++ '}' :: after → ¬ Balances b) ∧
    (∀ before b after, script = before ++ ("methods: \x7b".toList ++ (b ++ '}' :: after)) →
      Balances b →
      (∀ before' rest, StandsIn OpensTable script before' rest →
        before.length ≤ before'.length) →
      methodsInterior? script = some b) := by
  have hheader : OpensTable "methods: \x7b".toList := ⟨[], " ".toList, rfl, rfl, rfl⟩
  rw [← spells_methodsHeader] at hheader ⊢
  refine ⟨fun b => methodsInterior?_eq_some_iff, ?_, methodsInterior?_eq_none_iff, ?_⟩
  · intro b b' after after' hb hb' heq
    exact hb.unique hb' heq
  · intro before b after hs hb hfirst
    exact methodsInterior?_eq_some_iff.mpr ⟨hb, before, after, ⟨_, hheader, hs⟩, hfirst⟩

end SingleFile.Script
