import SingleFile.Proofs.Script.Capture

/-!
# Listed entries

The interior of a method table is often a list: texts in order, with blanks and
commas around them.  What is read from such a list is put together from what is
read from each text, whether the interior is read by its entries or by the depth
of its braces.

Main results:

- Theorem `Lists.entryParts_eq`: a list of texts that are read as one entry each
  is read as these entries.
- Theorem `methodTable_of_entryParts`: entries of different names make a table
  that holds them in order.
- Theorem `Lists.closesBraces`: a list of texts that close their braces closes its
  own.
- Theorem `Lists.exists_of_opener`: where the braces of a list are opened.
-/

namespace SingleFile.Script

open SingleFile.Text (isBlank isWord isBlankText dropBlank)

/-! ## Lists of texts -/

/-- The text consists of blanks and commas. -/
def IsGap (s : List Char) : Prop :=
  ∀ c ∈ s, isBlank c = true ∨ c = ','

/-- The text holds the pieces in order, with blanks and commas around them. -/
inductive Lists : List (List Char) → List Char → Prop where
  | nil {gap : List Char} (blank : IsGap gap) : Lists [] gap
  | cons {gap piece text : List Char} {pieces : List (List Char)} (blank : IsGap gap)
      (rest : Lists pieces text) : Lists (piece :: pieces) (gap ++ (piece ++ text))

theorem IsGap.isWord_eq_false {s : List Char} (h : IsGap s) : ∀ c ∈ s, isWord c = false := by
  intro c hc
  rcases h c hc with hblank | rfl
  · exact Text.isWord_eq_false_of_isBlank hblank
  · decide

theorem IsGap.not_mem {s : List Char} (h : IsGap s) {c : Char} (hc : isBlank c = false)
    (hcomma : c ≠ ',') : c ∉ s := by
  intro hmem
  rcases h c hmem with hblank | hc'
  · rw [hc] at hblank
    cases hblank
  · exact hcomma hc'

/-- Pieces that are joined by commas behind a gap are listed. Before all pieces but the
first the gap is the comma. -/
theorem lists_append_intercalate (pieces : List (List Char)) {gap : List Char} (h : IsGap gap) :
    Lists pieces (gap ++ ", ".toList.intercalate pieces) := by
  have hnil : IsGap [] := nofun
  have hseparator : IsGap ", ".toList := by
    intro c hc
    have hc' : c = ',' ∨ c = ' ' := by simpa using hc
    rcases hc' with rfl | rfl
    · exact .inr rfl
    · exact .inl (by decide)
  induction pieces generalizing gap with
  | nil =>
      rw [List.intercalate_nil, List.append_nil]
      exact .nil h
  | cons piece pieces ih =>
      cases pieces with
      | nil =>
          have hlast : Lists [piece] (gap ++ (piece ++ [])) := .cons h (.nil hnil)
          rw [List.intercalate_singleton]
          rwa [List.append_nil] at hlast
      | cons next pieces =>
          rw [List.intercalate_cons_cons, List.append_assoc]
          exact .cons h (ih hseparator)

/-- Joined texts are a list of them. -/
theorem lists_intercalate (pieces : List (List Char)) :
    Lists pieces (", ".toList.intercalate pieces) := by
  have hgap : IsGap [] := nofun
  exact lists_append_intercalate pieces hgap

/-! ## Entries -/

/-- What holds no word is passed over. -/
theorem entryParts_append_of_not_isWord {gap : List Char} (h : ∀ c ∈ gap, isWord c = false)
    (s : List Char) : entryParts (gap ++ s) = entryParts s := by
  induction gap with
  | nil => rfl
  | cons c gap ih =>
      rw [List.cons_append, entryParts_of_not_isWord (h c List.mem_cons_self)]
      exact ih fun d hd => h d (List.mem_cons_of_mem c hd)

/-- A word that another word follows begins no entry. -/
theorem entryAt?_eq_none_of_words {word gap : List Char} {c : Char}
    (hword : ∀ d ∈ word, isWord d = true) (hgap : isBlankText gap = true) (hne : gap ≠ [])
    (hc : isWord c = true) (s : List Char) : entryAt? (word ++ (gap ++ c :: s)) = none := by
  have hafter : (word ++ (gap ++ c :: s)).dropWhile isWord = gap ++ c :: s := by
    obtain ⟨b, gap', rfl⟩ := List.exists_cons_of_ne_nil hne
    have hblank : isBlank b = true := List.all_eq_true.mp hgap b List.mem_cons_self
    rw [List.dropWhile_append_of_pos hword, List.cons_append, List.dropWhile_cons_of_neg]
    simp [Text.isWord_eq_false_of_isBlank hblank]
  have hvisible : isBlank c = false := by
    cases hb : isBlank c with
    | false => rfl
    | true =>
        rw [Text.isWord_eq_false_of_isBlank hb] at hc
        cases hc
  have hdrop : dropBlank (gap ++ c :: s) = c :: s := by
    rw [Text.dropBlank_blank_append hgap]
    exact Text.dropBlank_of_head hvisible
  have hopener : c ≠ '(' := by
    rintro rfl
    exact absurd hc (by decide)
  have hnone : afterBlanks? '(' (gap ++ c :: s) = none := by
    simp [afterBlanks?, hdrop, hopener]
  simp only [entryAt?, hafter, hnone]
  rfl

/-- A word that another word follows is passed over. -/
theorem entryParts_append_of_words {word gap : List Char} {c : Char}
    (hword : ∀ d ∈ word, isWord d = true) (hgap : isBlankText gap = true) (hne : gap ≠ [])
    (hc : isWord c = true) (s : List Char) :
    entryParts (word ++ (gap ++ c :: s)) = entryParts (c :: s) := by
  have hblank : ∀ b ∈ gap, isWord b = false := fun b hb =>
    Text.isWord_eq_false_of_isBlank (List.all_eq_true.mp hgap b hb)
  rw [← entryParts_append_of_not_isWord hblank (c :: s)]
  cases word with
  | nil => rfl
  | cons d word =>
      have hfirst := entryAt?_eq_none_of_words hword hgap hne hc s
      have hrest : ∀ e ∈ word, isWord e = true := fun e he => hword e (List.mem_cons_of_mem d he)
      obtain ⟨b, gap', rfl⟩ := List.exists_cons_of_ne_nil hne
      rw [List.cons_append] at hfirst ⊢
      rw [entryParts_of_entryAt?_eq_none (hword d List.mem_cons_self) hfirst,
        List.dropWhile_append_of_pos hrest, List.cons_append, List.dropWhile_cons_of_neg]
      simp [hblank b List.mem_cons_self]

/-- A list of texts that are read as one entry each is read as these entries. -/
theorem Lists.entryParts_eq {α : Type} {as : List α} {source : α → List Char}
    {parts : α → EntryParts}
    (hread : ∀ a ∈ as, ∀ rest, entryParts (source a ++ rest) = parts a :: entryParts rest)
    {text : List Char} (h : Lists (as.map source) text) : entryParts text = as.map parts := by
  generalize hpieces : as.map source = pieces at h
  induction h generalizing as with
  | nil blank =>
      rw [List.map_eq_nil_iff.mp hpieces]
      have hgap := entryParts_append_of_not_isWord blank.isWord_eq_false []
      rw [List.append_nil] at hgap
      rw [hgap, entryParts]
      rfl
  | cons blank _ ih =>
      obtain ⟨a, as, rfl, rfl, hrest⟩ := List.map_eq_cons_iff.mp hpieces
      rw [entryParts_append_of_not_isWord blank.isWord_eq_false, hread a List.mem_cons_self,
        ih (fun b hb => hread b (List.mem_cons_of_mem a hb)) hrest]
      rfl

/-- Entries of different names make a table that holds them in order. -/
theorem methodTable_of_entryParts {interior : List Char} {es : List EntryParts}
    (h : entryParts interior = es) (hnames : (es.map fun e => e.fragment.name).Nodup) :
    methodTable interior = es.map fun e => (e.fragment.name, e.fragment) := by
  rw [methodTable, entries, h, List.map_map]
  refine Table.ofEntries_of_nodup ?_
  rw [List.map_map]
  exact hnames

/-! ## The depth of braces -/

/-- Read by the depth of its braces, the text comes back to the depth at which it
begins, and never goes below. -/
def ClosesBraces (p : List Char) : Prop :=
  ∀ depth s, balanced depth (p ++ s) = (balanced depth s).map (p ++ ·)

/-- Two texts that close their braces do so one behind the other. -/
theorem ClosesBraces.append {p q : List Char} (hp : ClosesBraces p) (hq : ClosesBraces q) :
    ClosesBraces (p ++ q) := by
  intro depth s
  rw [List.append_assoc, hp, hq, Option.map_map]
  congr 1
  funext t
  simp

theorem closesBraces_of_not_mem {p : List Char} (hopener : '{' ∉ p) (hcloser : '}' ∉ p) :
    ClosesBraces p := by
  intro depth s
  rw [balanced_append hcloser, List.count_eq_zero.mpr hopener, Nat.add_zero]

/-- A closing brace closes the only brace that was opened before it. -/
theorem closesBraces_of_count_eq_one {p : List Char} (hcount : p.count '{' = 1)
    (hcloser : '}' ∉ p) : ClosesBraces (p ++ ['}']) := by
  intro depth s
  rw [List.append_assoc, List.singleton_append, balanced_append hcloser, hcount, balanced_closer,
    Option.map_map]
  congr 1
  funext t
  simp

/-- A list of texts that close their braces closes its own. -/
theorem Lists.closesBraces {pieces : List (List Char)} {text : List Char} (h : Lists pieces text)
    (hpieces : ∀ piece ∈ pieces, ClosesBraces piece) : ClosesBraces text := by
  induction h with
  | nil blank =>
      exact closesBraces_of_not_mem (blank.not_mem (by decide) (by decide))
        (blank.not_mem (by decide) (by decide))
  | cons blank _ ih =>
      have hgap := closesBraces_of_not_mem (blank.not_mem (by decide) (by decide))
        (blank.not_mem (by decide) (by decide))
      have hrest := ih fun piece hpiece => hpieces piece (List.mem_cons_of_mem _ hpiece)
      exact hgap.append ((hpieces _ List.mem_cons_self).append hrest)

/-- The interior of a table that closes its braces is found whole. -/
theorem methodsInterior?_of_closesBraces {interior : List Char} (h : ClosesBraces interior) :
    methodsInterior? ("methods: \x7b".toList ++ (interior ++ ['}'])) = some interior := by
  have hcut : methodsHeader.cut ("methods: \x7b".toList ++ (interior ++ ['}'])) =
      some ([], interior ++ ['}']) := Phrase.cut_of_after? rfl
  have hend : balanced 0 ['}'] = some [] := rfl
  simp only [methodsInterior?, hcut, Option.bind_eq_bind, Option.bind_some]
  rw [h, hend, Option.map_some, List.append_nil]

/-! ## Opening braces -/

/-- A character is found behind a text that does not hold it. -/
theorem exists_eq_append_of_not_mem {c : Char} {p s t r : List Char} (hp : c ∉ p)
    (h : p ++ s = t ++ c :: r) : ∃ q, t = p ++ q ∧ s = q ++ c :: r := by
  rcases List.append_eq_append_iff.mp h with ⟨q, ht, hs⟩ | ⟨q, hsplit, hr⟩
  · exact ⟨q, ht, hs⟩
  · cases q with
    | nil =>
        rw [List.append_nil] at hsplit
        exact ⟨[], by simp [hsplit], hr.symm⟩
    | cons d q =>
        obtain ⟨rfl, _⟩ := List.cons.inj hr
        exact absurd (by rw [hsplit]; simp) hp

/-- Where the texts of a list open one brace each, the list opens no other. -/
theorem Lists.exists_of_opener {α : Type} {as : List α} {head tail : α → List Char}
    (hhead : ∀ a ∈ as, '{' ∉ head a) (htail : ∀ a ∈ as, '{' ∉ tail a) {text after : List Char}
    (h : Lists (as.map fun a => head a ++ '{' :: tail a) text) (hafter : '{' ∉ after)
    {t r : List Char} (hopener : text ++ after = t ++ '{' :: r) :
    ∃ a ∈ as, ∃ before rest, t = before ++ head a ∧ r = tail a ++ rest := by
  generalize hpieces : (as.map fun a => head a ++ '{' :: tail a) = pieces at h
  induction h generalizing as t with
  | nil blank =>
      have hgap := blank.not_mem (c := '{') (by decide) (by decide)
      obtain ⟨q, _, hq⟩ := exists_eq_append_of_not_mem hgap hopener
      exact absurd (by rw [hq]; simp) hafter
  | @cons gap piece text pieces blank rest ih =>
      obtain ⟨a, as, rfl, rfl, hrest⟩ := List.map_eq_cons_iff.mp hpieces
      have hgap := blank.not_mem (c := '{') (by decide) (by decide)
      simp only [List.append_assoc, List.cons_append] at hopener
      obtain ⟨t₁, rfl, hopener₁⟩ := exists_eq_append_of_not_mem hgap hopener
      obtain ⟨t₂, rfl, hopener₂⟩ :=
        exists_eq_append_of_not_mem (hhead a List.mem_cons_self) hopener₁
      cases t₂ with
      | nil =>
          obtain ⟨_, rfl⟩ := List.cons.inj hopener₂
          exact ⟨a, List.mem_cons_self, gap, text ++ after, by simp, rfl⟩
      | cons c t₂ =>
          obtain ⟨rfl, htext⟩ := List.cons.inj hopener₂
          obtain ⟨t₃, rfl, hopener₃⟩ :=
            exists_eq_append_of_not_mem (htail a List.mem_cons_self) htext
          obtain ⟨b, hb, before, rest, rfl, hr⟩ := ih
            (fun b hb => hhead b (List.mem_cons_of_mem a hb))
            (fun b hb => htail b (List.mem_cons_of_mem a hb)) hopener₃ hrest
          refine ⟨b, List.mem_cons_of_mem a hb, gap ++ (head a ++ '{' :: (tail a ++ before)),
            rest, ?_, hr⟩
          simp

end SingleFile.Script
