import SingleFile.Proofs.Script.Initializers
import SingleFile.Proofs.Script.Interior
import SingleFile.Proofs.Script.Parameters

/-!
# Keywords of blocks

The head of a block begins with a keyword, and the first head in a script is taken.
It is looked for as text, so that a longer word which ends in the keyword serves as
well as the keyword.  Where such a word comes first, the block is read behind it and
the block behind the keyword is passed over; otherwise the block is the one behind the
first keyword that is a word of its own.

Main results:

- Theorem `Block.find?_eq_some_iff`: a block is read behind its first head.
- Theorem `Block.endsOutsideWord_iff`: when the first head begins with a whole word.
- Theorem `keywords_whole_iff`: what is recognised, and when it is what stands behind
  whole words.
- Theorem `keywords_within_words`: longer words that are taken for keywords.
-/

namespace SingleFile.Script

open SingleFile.Text (isBlank isBlankText cutAt)

/-! ## Blocks -/

/-- The blocks that are recognised in a script. -/
inductive Block where
  | setup
  | data
  | methods
deriving DecidableEq, Repr

namespace Block

/-- The word that the head of a block begins with. -/
def keyword : Block → List Char
  | setup => "setup".toList
  | data => "data".toList
  | methods => "methods".toList

/-- The phrase that a block begins with. -/
def header : Block → Phrase
  | setup => setupHeader
  | data => dataHeader
  | methods => methodsHeader

/-- The text is the head of a block, up to the brace. -/
def Opens : Block → List Char → Prop
  | setup => OpensFunction "setup".toList
  | data => OpensFunction "data".toList
  | methods => OpensTable

/-- What is read of a block behind its head. -/
def read? : Block → List Char → Option (List Char)
  | setup, rest => (cutAt '}' rest).map Prod.fst
  | data, rest =>
      (returnHeader.cut rest).bind fun opened => (returnCloser.cut opened.2).map Prod.fst
  | methods, rest => balanced 0 rest

/-- What is recognised of a block in a script. -/
def find? : Block → List Char → Option (List Char)
  | setup => setupBody?
  | data => dataBody?
  | methods => methodsInterior?

theorem spells_header (b : Block) : b.header.Spells = b.Opens := by
  cases b with
  | setup => exact spells_setupHeader
  | data => exact spells_dataHeader
  | methods => exact spells_methodsHeader

theorem isVisible_header (b : Block) : b.header.IsVisible := by
  cases b with
  | setup => exact isVisible_setupHeader
  | data => exact isVisible_dataHeader
  | methods => exact isVisible_methodsHeader

theorem occurs_header (b : Block) : b.header.Occurs = StandsIn b.Opens := by
  rw [← spells_header]
  rfl

theorem occursFirst_header (b : Block) : b.header.OccursFirst = StandsFirst b.Opens := by
  rw [← spells_header]
  rfl

/-- A block is found by cutting the script at its head. -/
theorem find?_eq_bind (b : Block) (script : List Char) :
    b.find? script = (b.header.cut script).bind fun cut => b.read? cut.2 := by
  cases b with
  | setup =>
      simp only [find?, setupBody?, header, read?, Option.bind_eq_bind, Option.map_eq_bind]
      rfl
  | data =>
      simp only [find?, dataBody?, header, read?, Option.bind_eq_bind, Option.map_eq_bind]
      rfl
  | methods => rfl

/-- A block is read behind its first head, whatever stands before it. -/
theorem find?_eq_some_iff {b : Block} {script t : List Char} :
    b.find? script = some t ↔
      ∃ before rest, StandsFirst b.Opens script before rest ∧ b.read? rest = some t := by
  simp only [find?_eq_bind, Option.bind_eq_some_iff, Prod.exists,
    Phrase.cut_eq_some_iff b.isVisible_header, occursFirst_header]

end Block

/-! ## Whole words -/

/-- The text does not end within a word: its last character is no part of one. -/
def EndsOutsideWord (before : List Char) : Prop :=
  ∀ c ∈ before.getLast?, isIdentifierPart c = false

instance (before : List Char) : Decidable (EndsOutsideWord before) :=
  decidable_of_iff (before.getLast?.all (fun c => !isIdentifierPart c) = true) <| by
    simp [EndsOutsideWord, Option.all_eq_true]

/-- A mark stands between the two parts, and begins with a whole word. -/
def StandsWhole (marks : List Char → Prop) (s before rest : List Char) : Prop :=
  StandsIn marks s before rest ∧ EndsOutsideWord before

/-- A mark that begins with a whole word stands between the two parts, and none stands
earlier. -/
def StandsWholeFirst (marks : List Char → Prop) (s before rest : List Char) : Prop :=
  StandsWhole marks s before rest ∧
    ∀ before' rest', StandsWhole marks s before' rest' → before.length ≤ before'.length

/-- At one place the same text stands before every mark. -/
theorem StandsIn.before_eq {marks : List Char → Prop} {s before rest before' rest' : List Char}
    (h : StandsIn marks s before rest) (h' : StandsIn marks s before' rest')
    (hlength : before.length = before'.length) : before = before' := by
  obtain ⟨t, _, hs⟩ := h
  obtain ⟨t', _, hs'⟩ := h'
  exact (List.append_inj (hs.symm.trans hs') hlength).1

namespace Block

/-- The script has a head of the block that begins within a word, before all heads that
begin with a whole word. -/
def LongerWordFirst (b : Block) (script : List Char) : Prop :=
  ∃ before rest, StandsIn b.Opens script before rest ∧ ¬ EndsOutsideWord before ∧
    ∀ before' rest', StandsWhole b.Opens script before' rest' → before.length < before'.length

/-- The text is what the script has for the block when only whole words count. -/
def IsBehindWord (b : Block) (script t : List Char) : Prop :=
  ∃ before rest, StandsWholeFirst b.Opens script before rest ∧ b.read? rest = some t

variable {b : Block} {script before rest : List Char}

/-- The first head begins with a whole word unless a longer word comes first. At one place
no head begins both within a word and with a whole one. -/
theorem endsOutsideWord_iff (h : StandsFirst b.Opens script before rest) :
    EndsOutsideWord before ↔ ¬ b.LongerWordFirst script := by
  constructor
  · rintro hwhole ⟨before', rest', hstands, _, hlonger⟩
    have hlt := hlonger before rest ⟨h.1, hwhole⟩
    have hle := h.2 before' rest' hstands
    omega
  · intro hnone
    by_cases hwhole : EndsOutsideWord before
    · exact hwhole
    · refine absurd ⟨before, rest, h.1, hwhole, ?_⟩ hnone
      intro before' rest' hstands
      have hle := h.2 before' rest' hstands.1
      by_cases hlt : before.length < before'.length
      · exact hlt
      · have hsame := h.1.before_eq hstands.1 (by omega)
        rw [hsame] at hwhole
        exact absurd hstands.2 hwhole

/-- Where no longer word comes first, the first head is the first one that begins with
a whole word. -/
theorem standsFirst_iff_standsWholeFirst (hnone : ¬ b.LongerWordFirst script) :
    StandsFirst b.Opens script before rest ↔ StandsWholeFirst b.Opens script before rest := by
  constructor
  · intro h
    refine ⟨⟨h.1, (endsOutsideWord_iff h).mpr hnone⟩, ?_⟩
    intro before' rest' hstands
    exact h.2 before' rest' hstands.1
  · intro h
    have hoccurs : b.header.Occurs script before rest := by
      rw [occurs_header]
      exact h.1.1
    obtain ⟨before', rest', hfirst⟩ := hoccurs.exists_first b.isVisible_header
    have hfirst' : StandsFirst b.Opens script before' rest' := by
      rwa [← occursFirst_header]
    have hle := h.2 before' rest' ⟨hfirst'.1, (endsOutsideWord_iff hfirst').mpr hnone⟩
    refine ⟨h.1.1, ?_⟩
    intro before'' rest'' hstands
    have hle' := hfirst'.2 before'' rest'' hstands
    omega

/-- Where no longer word comes first, a block is read behind the first whole word. -/
theorem find?_eq_some_iff_isBehindWord (hnone : ¬ b.LongerWordFirst script) {t : List Char} :
    b.find? script = some t ↔ b.IsBehindWord script t := by
  simp only [find?_eq_some_iff, IsBehindWord, standsFirst_iff_standsWholeFirst hnone]

end Block

/-! ## Longer words -/

/-- Up to the parenthesis or colon behind it, a keyword is followed by no character of
a word. -/
theorem exists_cons_of_blank_append {gap : List Char} (hgap : isBlankText gap = true) {d : Char}
    (hd : isIdentifierPart d = false) (s : List Char) :
    ∃ c u, gap ++ d :: s = c :: u ∧ isIdentifierPart c = false := by
  cases gap with
  | nil => exact ⟨d, s, rfl, hd⟩
  | cons c gap =>
      rw [isBlankText, List.all_cons, Bool.and_eq_true] at hgap
      exact ⟨c, gap ++ d :: s, rfl, isIdentifierPart_eq_false_of_isBlank hgap.1⟩

namespace Block

/-- A keyword is made of characters of identifiers. -/
theorem isIdentifierPart_of_mem_keyword (b : Block) :
    ∀ c ∈ b.keyword, isIdentifierPart c = true := by
  have hall : b.keyword.all isIdentifierPart = true := by
    cases b <;> decide
  exact List.all_eq_true.mp hall

/-- The head of a block is its keyword, and then no character of a word. -/
theorem Opens.exists_eq_keyword_append {b : Block} {t : List Char} (h : b.Opens t) :
    ∃ c u, t = b.keyword ++ c :: u ∧ isIdentifierPart c = false := by
  cases b with
  | setup =>
      obtain ⟨gap, _, _, hgap, _, _, rfl⟩ := h
      obtain ⟨c, u, hu, hc⟩ := exists_cons_of_blank_append hgap (d := '(') (by decide) _
      exact ⟨c, u, by rw [hu]; rfl, hc⟩
  | data =>
      obtain ⟨gap, _, _, hgap, _, _, rfl⟩ := h
      obtain ⟨c, u, hu, hc⟩ := exists_cons_of_blank_append hgap (d := '(') (by decide) _
      exact ⟨c, u, by rw [hu]; rfl, hc⟩
  | methods =>
      obtain ⟨gap, _, hgap, _, rfl⟩ := h
      obtain ⟨c, u, hu, hc⟩ := exists_cons_of_blank_append hgap (d := ':') (by decide) _
      exact ⟨c, u, by rw [hu]; rfl, hc⟩

/-- The first word of what opens a block is its keyword. -/
theorem Opens.takeWhile_append {b : Block} {t : List Char} (h : b.Opens t) (rest : List Char) :
    (t ++ rest).takeWhile isIdentifierPart = b.keyword := by
  obtain ⟨c, u, rfl, hc⟩ := h.exists_eq_keyword_append
  rw [List.append_assoc, List.takeWhile_append_of_pos b.isIdentifierPart_of_mem_keyword,
    List.cons_append, List.takeWhile_cons_of_neg (by simp [hc]), List.append_nil]

/-- Behind the characters of a word the keyword is still the first head. -/
theorem Opens.standsFirst {b : Block} {w t : List Char} (h : b.Opens t)
    (hw : ∀ c ∈ w, isIdentifierPart c = true) (rest : List Char) :
    StandsFirst b.Opens (w ++ (t ++ rest)) w rest := by
  refine ⟨⟨t, h, rfl⟩, ?_⟩
  rintro before' rest' ⟨t', h', hs⟩
  rcases List.append_eq_append_iff.mp hs with ⟨a, rfl, _⟩ | ⟨a, rfl, htail⟩
  · simp
  · have ha : ∀ c ∈ a, isIdentifierPart c = true := by
      intro c hc
      exact hw c (List.mem_append_right before' hc)
    have hwords := congrArg (List.takeWhile isIdentifierPart) htail
    rw [h'.takeWhile_append, List.takeWhile_append_of_pos ha, h.takeWhile_append] at hwords
    have hlength := congrArg List.length hwords
    simp only [List.length_append] at hlength ⊢
    omega

/-- A block is recognised under every longer word that ends in its keyword. -/
theorem Opens.find?_append {b : Block} {w t : List Char} (h : b.Opens t)
    (hw : ∀ c ∈ w, isIdentifierPart c = true) (rest : List Char) :
    b.find? (w ++ (t ++ rest)) = b.read? rest := by
  have hfirst := h.standsFirst hw rest
  rw [← occursFirst_header, ← Phrase.cut_eq_some_iff b.isVisible_header] at hfirst
  rw [find?_eq_bind, hfirst]
  rfl

end Block

/-! ## What is recognised -/

/-- The initializer is `setup` exactly when that block is found. -/
theorem initializer?_eq_some_setup_iff {script : List Char} {body : String} :
    initializer? script = some (.setup body) ↔ Block.setup.find? script = some body.toList := by
  rw [Block.find?, initializer?]
  cases setupBody? script with
  | some found => simp [String.ext_iff]
  | none => cases dataBody? script <;> simp

/-- The initializer is `data` exactly when that block is found and `setup` is not. -/
theorem initializer?_eq_some_data_iff {script : List Char} {object : String} :
    initializer? script = some (.data object) ↔
      Block.setup.find? script = none ∧ Block.data.find? script = some object.toList := by
  rw [Block.find?, Block.find?, initializer?]
  cases setupBody? script with
  | some found => simp
  | none => cases dataBody? script <;> simp [String.ext_iff]

/-- The methods are the table of the block that is found, unless it has no entry. -/
theorem methods?_eq_some_iff {script : List Char} {table : Table String MethodFragment} :
    methods? script = some table ↔
      table ≠ [] ∧ ∃ interior, Block.methods.find? script = some interior ∧
        table = methodTable interior := by
  rw [Block.find?, methods?]
  cases methodsInterior? script with
  | none => simp
  | some interior =>
      cases htable : methodTable interior with
      | nil => simp [htable]
      | cons entry entries =>
          simp only [htable, Option.some.injEq, exists_eq_left']
          constructor
          · rintro rfl
            exact ⟨List.cons_ne_nil entry entries, rfl⟩
          · rintro ⟨_, rfl⟩
            rfl

/-- A block is read behind its first head.  That head begins with a whole word unless a
longer word which ends in the keyword comes first, and under any longer word at the
front of a script the block is recognised as under the keyword.  Where no longer word
comes first, the recognised blocks, the initializer and the method table are those
behind whole words. -/
theorem keywords_whole_iff (script : List Char) :
    (∀ (b : Block) (t : List Char), b.find? script = some t ↔
      ∃ before rest, StandsFirst b.Opens script before rest ∧ b.read? rest = some t) ∧
    (∀ (b : Block) (before rest : List Char), StandsFirst b.Opens script before rest →
      (EndsOutsideWord before ↔ ¬ b.LongerWordFirst script)) ∧
    (∀ (b : Block) (w head rest : List Char), script = w ++ (head ++ rest) →
      (∀ c ∈ w, isIdentifierPart c = true) → b.Opens head → b.find? script = b.read? rest) ∧
    (∀ b : Block, ¬ b.LongerWordFirst script →
      ∀ t, b.find? script = some t ↔ b.IsBehindWord script t) ∧
    ((∀ b : Block, ¬ b.LongerWordFirst script) →
      (∀ body, initializer? script = some (.setup body) ↔
        Block.setup.IsBehindWord script body.toList) ∧
      (∀ object, initializer? script = some (.data object) ↔
        (∀ t, ¬ Block.setup.IsBehindWord script t) ∧
          Block.data.IsBehindWord script object.toList) ∧
      (∀ table, methods? script = some table ↔
        table ≠ [] ∧ ∃ interior, Block.methods.IsBehindWord script interior ∧
          table = methodTable interior)) := by
  refine ⟨fun b t => Block.find?_eq_some_iff, fun b before rest => Block.endsOutsideWord_iff, ?_,
    fun b hnone t => Block.find?_eq_some_iff_isBehindWord hnone, ?_⟩
  · rintro b w head rest rfl hw hhead
    exact hhead.find?_append hw rest
  · intro hnone
    have hfind : ∀ (b : Block) t, b.find? script = some t ↔ b.IsBehindWord script t := by
      intro b t
      exact Block.find?_eq_some_iff_isBehindWord (hnone b)
    have hnosetup : Block.setup.find? script = none ↔
        ∀ t, ¬ Block.setup.IsBehindWord script t := by
      simp only [← hfind, Option.eq_none_iff_forall_ne_some, ne_eq]
    constructor
    · intro body
      rw [initializer?_eq_some_setup_iff, hfind]
    constructor
    · intro object
      rw [initializer?_eq_some_data_iff, hfind, hnosetup]
    · intro table
      simp only [methods?_eq_some_iff, hfind]

/-- A function of the method table takes the place of `data`, and a table with a longer
name that of `methods`, for words that only end in `setup` and `methods`. -/
theorem keywords_within_words :
    Block.setup.find? "resetup() \x7b\x7d".toList = some [] ∧
      StandsFirst Block.setup.Opens "resetup() \x7b\x7d".toList "re".toList "\x7d".toList ∧
      ¬ EndsOutsideWord "re".toList ∧
    initializer? "data() \x7breturn \x7ba: 1\x7d\x7d, methods: \x7bresetup() \x7b\x7d\x7d".toList =
        some (.setup "") ∧
      dataBody? "data() \x7breturn \x7ba: 1\x7d\x7d, methods: \x7bresetup() \x7b\x7d\x7d".toList =
        some "a: 1".toList ∧
    Block.data.find? "$data() \x7breturn \x7ba: 1\x7d\x7d".toList = some "a: 1".toList ∧
      StandsFirst Block.data.Opens "$data() \x7breturn \x7ba: 1\x7d\x7d".toList "$".toList
        "return \x7ba: 1\x7d\x7d".toList ∧
      ¬ EndsOutsideWord "$".toList ∧
    Block.methods.find? "mymethods: \x7bgo() \x7b\x7d\x7d, methods: \x7bstop() \x7b\x7d\x7d".toList =
        some "go() \x7b\x7d".toList ∧
      StandsFirst Block.methods.Opens
        "mymethods: \x7bgo() \x7b\x7d\x7d, methods: \x7bstop() \x7b\x7d\x7d".toList "my".toList
        "go() \x7b\x7d\x7d, methods: \x7bstop() \x7b\x7d\x7d".toList ∧
      ¬ EndsOutsideWord "my".toList := by
  simp only [← Block.occursFirst_header, ← Phrase.cut_eq_some_iff (Block.isVisible_header _)]
  decide +kernel

end SingleFile.Script
