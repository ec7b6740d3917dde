import SingleFile.Proofs.Script.Entries

/-!
# The scan for entries

An entry may begin wherever a word begins.  The entries of a method table are read
from left to right, each behind the one before it, and a word that begins none is
passed over.  What comes out can be told without the scan: the places of the entries
lie apart, and every place where an entry could begin lies within one of them.  There
is one list of places of this kind for every text.

Main results:

- Theorem `Place.In.eq_of_start`: where an entry begins there is only one.
- Theorem `exists_isScanFrom`: the entries that are read stand at the places of a
  scan.
- Theorem `IsScanFrom.unique`: a text has one scan.
- Theorem `methodTable_scan`: the table of a text, from the places of its scan.
-/

namespace SingleFile.Script

open SingleFile.Text (isBlank isWord)

/-! ## Where words end -/

/-- A beginning of two joined texts that goes beyond the first ends with a character
of the second. -/
theorem exists_getLast?_of_prefix {u w b : List Char} (h : b <+: u ++ w)
    (hlt : u.length < b.length) : ∃ c ∈ w, b.getLast? = some c := by
  obtain ⟨t, rfl⟩ : u <+: b := List.prefix_of_prefix_length_le ⟨w, rfl⟩ h (by omega)
  have hne : t ≠ [] := by
    rintro rfl
    rw [List.append_nil] at hlt
    exact Nat.lt_irrefl _ hlt
  have hprefix : t <+: w := (List.prefix_append_right_inj u).mp h
  refine ⟨t.getLast hne, hprefix.subset (List.getLast_mem hne), ?_⟩
  rw [List.getLast?_append, List.getLast?_eq_some_getLast hne, Option.some_or]

/-- The name of an entry is the whole word that it begins with. -/
theorem name_of_entryAt? {s rest : List Char} {e : EntryParts} (h : entryAt? s = some (e, rest)) :
    e.name = s.takeWhile isWord := by
  obtain ⟨rfl, hproper⟩ := entryAt?_eq_some_iff.mp h
  simp only [EntryParts.source, List.append_assoc, List.cons_append]
  exact (takeWhile_isWord_append hproper.name hproper.nameGap _).1.symm

/-! ## Places -/

/-- An entry in a text, with the text before and after it. -/
structure Place where
  before : List Char
  parts : EntryParts
  after : List Char

namespace Place

/-- The position of the entry's first character. -/
def start (p : Place) : Nat :=
  p.before.length

/-- The position behind the entry's last character. -/
def stop (p : Place) : Nat :=
  p.before.length + p.parts.source.length

/-- The entry stands in the text, in parts of the right kind, and its name is a whole
word: no word character stands right before it. -/
structure In (p : Place) (s : List Char) : Prop where
  text_eq : s = p.before ++ (p.parts.source ++ p.after)
  proper : p.parts.Proper
  name_ne_nil : p.parts.name ≠ []
  whole : ∀ c ∈ p.before.getLast?, isWord c = false

theorem start_lt_stop (p : Place) : p.start < p.stop := by
  simp only [start, stop, EntryParts.source, List.length_append, List.length_cons]
  omega

variable {p q : Place} {s u v : List Char}

/-- The entry of a place is read at its position. -/
theorem In.entryAt? (h : p.In (u ++ v)) (hstart : p.start = u.length) :
    p.before = u ∧ entryAt? v = some (p.parts, p.after) := by
  obtain ⟨hbefore, hrest⟩ := List.append_inj h.text_eq.symm hstart
  exact ⟨hbefore, entryAt?_eq_some_iff.mpr ⟨hrest.symm, h.proper⟩⟩

/-- An entry that is read where a word begins has its place there. -/
theorem In.of_entryAt? {c : Char} {e : EntryParts} {rest : List Char}
    (hentry : Script.entryAt? (c :: v) = some (e, rest)) (hc : isWord c = true)
    (hwhole : ∀ d ∈ u.getLast?, isWord d = false) : In ⟨u, e, rest⟩ (u ++ c :: v) := by
  obtain ⟨hsource, hproper⟩ := entryAt?_eq_some_iff.mp hentry
  have hname : e.name ≠ [] := by
    rw [name_of_entryAt? hentry, List.takeWhile_cons_of_pos hc]
    exact List.cons_ne_nil _ _
  rw [hsource]
  exact ⟨rfl, hproper, hname, hwhole⟩

/-- Where an entry begins there is only one. -/
theorem In.eq_of_start (h : p.In s) (h' : q.In s) (hstart : p.start = q.start) : p = q := by
  have hq := h'.text_eq
  subst hq
  obtain ⟨hbefore, hentry⟩ := h.entryAt? hstart
  obtain ⟨_, hentry'⟩ := h'.entryAt? rfl
  rw [hentry, Option.some.injEq, Prod.mk.injEq] at hentry'
  obtain ⟨hparts, hafter⟩ := hentry'
  cases p
  cases q
  simp_all

/-- Where an entry begins a word begins. -/
theorem In.isWord_of_cons {c : Char} (h : p.In (u ++ c :: v)) (hstart : p.start = u.length) :
    isWord c = true := by
  obtain ⟨_, hentry⟩ := h.entryAt? hstart
  have hsource := (entryAt?_eq_some_iff.mp hentry).1
  obtain ⟨d, name, hname⟩ := List.exists_cons_of_ne_nil h.name_ne_nil
  rw [EntryParts.source, hname] at hsource
  obtain ⟨rfl, _⟩ := List.cons.inj hsource
  exact h.proper.name c (by rw [hname]; exact List.mem_cons_self)

/-- No entry begins inside a word. The text before an entry would end in a part of the
word. -/
theorem In.not_inside {w : List Char} (h : p.In (u ++ (w ++ v)))
    (hword : ∀ c ∈ w, isWord c = true) (hstart : u.length < p.start) :
    u.length + w.length ≤ p.start := by
  by_cases hle : u.length + w.length ≤ p.start
  · exact hle
  exfalso
  unfold start at hstart hle
  have hsplit : p.before ++ (p.parts.source ++ p.after) = (u ++ w) ++ v := by
    rw [← h.text_eq, List.append_assoc]
  have hinside : p.before <+: u ++ w := by
    refine List.prefix_of_prefix_length_le ⟨_, hsplit⟩ ⟨v, rfl⟩ ?_
    rw [List.length_append]
    omega
  obtain ⟨c, hc, hlast⟩ := exists_getLast?_of_prefix hinside hstart
  have hwhole := h.whole c hlast
  rw [hword c hc] at hwhole
  cases hwhole

end Place

/-! ## Scans -/

/-- From a position on, the places hold all entries of the text: each place lies
behind the one before it, and each entry begins within one of them. -/
structure IsScanFrom (s : List Char) (n : Nat) (ps : List Place) : Prop where
  place : ∀ p ∈ ps, p.In s ∧ n ≤ p.start
  apart : ps.Pairwise fun p q => p.stop ≤ q.start
  covers : ∀ p : Place, p.In s → n ≤ p.start → ∃ q ∈ ps, q.start ≤ p.start ∧ p.start < q.stop

namespace IsScanFrom

variable {s : List Char} {n : Nat} {p : Place} {ps qs : List Place}

/-- At the end of a text nothing is left to be read. -/
theorem nil : IsScanFrom s s.length [] where
  place p hp := absurd hp List.not_mem_nil
  apart := .nil
  covers p hp hstart := by
    have hlength := congrArg List.length hp.text_eq
    have hlt := p.start_lt_stop
    simp only [List.length_append, Place.start, Place.stop] at hlength hlt hstart
    omega

/-- Where no entry begins the scan may as well start later. -/
theorem skip {m : Nat} (h : IsScanFrom s n ps) (hle : m ≤ n)
    (hskip : ∀ p : Place, p.In s → m ≤ p.start → n ≤ p.start) : IsScanFrom s m ps where
  place q hq := ⟨(h.place q hq).1, Nat.le_trans hle (h.place q hq).2⟩
  apart := h.apart
  covers q hq hstart := h.covers q hq (hskip q hq hstart)

/-- A word that begins no entry is passed over whole. -/
theorem skip_word {u w v : List Char} (h : IsScanFrom (u ++ (w ++ v)) (u.length + w.length) ps)
    (hword : ∀ c ∈ w, isWord c = true) (hentry : entryAt? (w ++ v) = none) :
    IsScanFrom (u ++ (w ++ v)) u.length ps := by
  refine h.skip (Nat.le_add_right _ _) fun p hp hstart => ?_
  by_cases hat : p.start = u.length
  · rw [(hp.entryAt? hat).2] at hentry
    cases hentry
  · exact hp.not_inside hword (by omega)

/-- A character outside all words is passed over. -/
theorem skip_other {u v : List Char} {c : Char} (h : IsScanFrom (u ++ c :: v) (u.length + 1) ps)
    (hc : isWord c = false) : IsScanFrom (u ++ c :: v) u.length ps := by
  refine h.skip (Nat.le_add_right _ _) fun p hp hstart => ?_
  by_cases hat : p.start = u.length
  · rw [hp.isWord_of_cons hat] at hc
    cases hc
  · omega

/-- An entry comes before those of the text behind it. -/
theorem cons (h : IsScanFrom s p.stop ps) (hp : p.In s) : IsScanFrom s p.start (p :: ps) where
  place q hq := by
    rcases List.mem_cons.mp hq with rfl | hq
    · exact ⟨hp, Nat.le_refl _⟩
    · have hstop := (h.place q hq).2
      have hlt := p.start_lt_stop
      exact ⟨(h.place q hq).1, by omega⟩
  apart := List.pairwise_cons.mpr ⟨fun q hq => (h.place q hq).2, h.apart⟩
  covers q hq hstart := by
    by_cases hinside : q.start < p.stop
    · exact ⟨p, List.mem_cons_self, hstart, hinside⟩
    · obtain ⟨r, hr, hcovers⟩ := h.covers q hq (by omega)
      exact ⟨r, List.mem_cons_of_mem p hr, hcovers⟩

/-- Behind its first entry a scan goes on as one. -/
theorem tail (h : IsScanFrom s n (p :: ps)) : IsScanFrom s p.stop ps where
  place q hq := ⟨(h.place q (List.mem_cons_of_mem p hq)).1,
    (List.pairwise_cons.mp h.apart).1 q hq⟩
  apart := (List.pairwise_cons.mp h.apart).2
  covers q hq hstart := by
    have hlt := p.start_lt_stop
    have hn := (h.place p List.mem_cons_self).2
    obtain ⟨r, hr, hle, hstop⟩ := h.covers q hq (by omega)
    rcases List.mem_cons.mp hr with rfl | hr
    · omega
    · exact ⟨r, hr, hle, hstop⟩

/-- The first entry of a scan is the first that there is. -/
theorem start_le (h : IsScanFrom s n (p :: ps)) {q : Place} (hq : q.In s) (hstart : n ≤ q.start) :
    p.start ≤ q.start := by
  obtain ⟨r, hr, hle, _⟩ := h.covers q hq hstart
  rcases List.mem_cons.mp hr with rfl | hr
  · exact hle
  · have happart := (List.pairwise_cons.mp h.apart).1 r hr
    have hlt := p.start_lt_stop
    omega

/-- A text has one scan. -/
theorem unique (h : IsScanFrom s n ps) (h' : IsScanFrom s n qs) : ps = qs := by
  induction ps generalizing n qs with
  | nil =>
      cases qs with
      | nil => rfl
      | cons q qs =>
          obtain ⟨hq, hstart⟩ := h'.place q List.mem_cons_self
          obtain ⟨r, hr, _⟩ := h.covers q hq hstart
          cases hr
  | cons p ps ih =>
      obtain ⟨hp, hpstart⟩ := h.place p List.mem_cons_self
      cases qs with
      | nil =>
          obtain ⟨r, hr, _⟩ := h'.covers p hp hpstart
          cases hr
      | cons q qs =>
          obtain ⟨hq, hqstart⟩ := h'.place q List.mem_cons_self
          have hle := h.start_le hq hqstart
          have hge := h'.start_le hp hpstart
          have heq : p = q := hp.eq_of_start hq (by omega)
          subst heq
          rw [ih h.tail h'.tail]

end IsScanFrom

/-! ## What is read -/

/-- An entry ends in a brace, which is no part of a word. -/
theorem EntryParts.isWord_getLast?_append_source (u : List Char) (e : EntryParts) :
    ∀ c ∈ (u ++ e.source).getLast?, isWord c = false := by
  have hsplit : u ++ e.source = (u ++ (e.name ++ (e.nameGap ++ '(' :: (e.parameters ++ ')' ::
      (e.headGap ++ '{' :: e.body))))) ++ ['}'] := by
    simp [EntryParts.source]
  intro c hc
  rw [hsplit, List.getLast?_concat] at hc
  cases hc
  decide

theorem isWord_head_dropWhile (s : List Char) :
    ∀ c ∈ (s.dropWhile isWord).head?, isWord c = false := by
  intro c hc
  have hhead := List.head?_dropWhile_not isWord s
  rw [Option.mem_def.mp hc] at hhead
  exact hhead

/-- The entries that are read from the rest of a text stand at the places of a scan,
unless the rest begins inside a word. -/
theorem exists_isScanFrom (u v : List Char)
    (h : (∀ c ∈ u.getLast?, isWord c = false) ∨ ∀ c ∈ v.head?, isWord c = false) :
    ∃ ps, IsScanFrom (u ++ v) u.length ps ∧ ps.map Place.parts = entryParts v := by
  induction v using entryParts.induct generalizing u with
  | case1 =>
      rw [List.append_nil]
      exact ⟨[], .nil, by rw [entryParts]; rfl⟩
  | case2 c s hc e rest hentry ih =>
      have hwhole : ∀ d ∈ u.getLast?, isWord d = false := by
        rcases h with h | h
        · exact h
        · rw [h c rfl] at hc
          cases hc
      have hplace := Place.In.of_entryAt? hentry hc hwhole
      obtain ⟨ps, hscan, hparts⟩ :=
        ih (u ++ e.source) (.inl (e.isWord_getLast?_append_source u))
      rw [List.append_assoc, ← (entryAt?_eq_some_iff.mp hentry).1, List.length_append] at hscan
      refine ⟨⟨u, e, rest⟩ :: ps, hscan.cons hplace, ?_⟩
      rw [entryParts_of_entryAt? hc hentry, List.map_cons, hparts]
  | case3 c s hc hentry ih =>
      have hsplit : c :: s = (c :: s.takeWhile isWord) ++ s.dropWhile isWord := by
        rw [List.cons_append, List.takeWhile_append_dropWhile]
      have hword : ∀ d ∈ c :: s.takeWhile isWord, isWord d = true := by
        intro d hd
        rcases List.mem_cons.mp hd with rfl | hd
        · exact hc
        · exact List.all_eq_true.mp List.all_takeWhile d hd
      obtain ⟨ps, hscan, hparts⟩ :=
        ih (u ++ c :: s.takeWhile isWord) (.inr (isWord_head_dropWhile s))
      rw [entryParts_of_entryAt?_eq_none hc hentry]
      rw [hsplit] at hentry ⊢
      rw [List.append_assoc, List.length_append] at hscan
      exact ⟨ps, hscan.skip_word hword hentry, hparts⟩
  | case4 c s hc ih =>
      have hother : isWord c = false := by simpa using hc
      have hend : ∀ d ∈ (u ++ [c]).getLast?, isWord d = false := by
        simp [hother]
      obtain ⟨ps, hscan, hparts⟩ := ih (u ++ [c]) (.inl hend)
      rw [List.append_assoc, List.singleton_append, List.length_append] at hscan
      rw [entryParts_of_not_isWord hother]
      exact ⟨ps, hscan.skip_other hother, hparts⟩

/-! ## The table -/

/-- The entries of a text stand at the places of its one scan, each with the source
that stands there.  Its table has one key for each name, at the place of the name's
first entry, and holds the last entry of that name under it. -/
theorem methodTable_scan (interior : List Char) :
    (∃ ps, IsScanFrom interior 0 ps ∧ (∀ qs, IsScanFrom interior 0 qs → qs = ps) ∧
      entries interior = ps.map fun p => ⟨String.ofList p.parts.name,
        String.ofList p.parts.parameters, String.ofList p.parts.body,
        String.ofList p.parts.source⟩) ∧
    (methodTable interior).keys.Nodup ∧
    (methodTable interior).keys = ((entries interior).map MethodFragment.name).eraseDups ∧
    (∀ name f, (name, f) ∈ methodTable interior ↔
      f.name = name ∧ ∃ before after, entries interior = before ++ f :: after ∧
        ∀ g ∈ after, g.name ≠ name) := by
  refine ⟨?_, ?_, ?_, ?_⟩
  · obtain ⟨ps, hscan, hparts⟩ := exists_isScanFrom [] interior (.inl nofun)
    refine ⟨ps, hscan, fun qs hqs => hqs.unique hscan, ?_⟩
    rw [entries, ← hparts, List.map_map]
    rfl
  · exact Table.nodup_keys_ofEntries _
  · rw [methodTable, Table.keys_ofEntries, List.map_map]
    rfl
  · intro name f
    exact Table.mem_ofEntries_map_iff

end SingleFile.Script
