import SingleFile.Proofs.Template.Form
import SingleFile.Proofs.Template.Margins

/-!
# The scan for directives

A directive may begin where no word character and no hyphen stands before it, and the
text goes on with the marker and a letter.  The scan takes the first such position,
reads the directive there, and goes on behind it and its equals sign.  It never gives
up a directive that it began for a shorter one, and it passes over no position where one
may begin, so that a text has one list of directives, whatever characters the marker
has.

Main results:

- Theorem `Scans.unique`: a text has one scan.
- Theorem `exists_scans`: the directives that are read stand at the places of a scan.
- Theorem `invalidDirectives_mem_faults_iff`: when directives are reported as a fault.
- Theorem `directives_scan`: the directives of a text, and those that lack their values,
  from the places of its scan.
-/

namespace SingleFile.Template

open SingleFile.Text (isBlankString isWord)

/-! ## Places -/

/-- A directive may begin at the position. -/
structure BeginsAt (marker s : List Char) (i : Nat) : Prop where
  free : ∀ c ∈ (s.take i).getLast?, isWord c = false ∧ c ≠ '-'
  marked : ∃ letter, letter.isAlpha = true ∧ marker ++ [letter] <+: s.drop i

/-- What may stand before a directive is neither of a word nor a dash. -/
theorem mayFollow_iff {b : Option Char} :
    mayFollow b = true ↔ ∀ c ∈ b, isWord c = false ∧ c ≠ '-' := by
  cases b with
  | none => simp [mayFollow]
  | some c => simp [mayFollow]

/-- A directive in a text, with the text before it and behind its assignment. -/
structure Place where
  before : List Char
  directive : Directive
  after : List Char

namespace Place

/-- The position of the directive's first character. -/
def start (p : Place) : Nat :=
  p.before.length

/-- The position behind the directive and its assignment. -/
def stop (p : Place) : Nat :=
  p.before.length + (p.directive.text ++ p.directive.assignment.getD []).length

/-- The directive stands in the text: it may begin there, and takes as much of the text
as it can. -/
structure In (p : Place) (marker s : List Char) : Prop where
  text_eq : s = p.before ++ (p.directive.text ++ (p.directive.assignment.getD [] ++ p.after))
  begins : BeginsAt marker s p.start
  stands : p.directive.StandsBefore marker p.after

variable {p q : Place} {marker s : List Char}

/-- Where a directive begins there is only one. -/
theorem In.eq_of_start (h : p.In marker s) (h' : q.In marker s) (hstart : p.start = q.start) :
    p = q := by
  obtain ⟨hbefore, hrest⟩ := List.append_inj (h.text_eq.symm.trans h'.text_eq) hstart
  have hread := directiveAt?_of_standsBefore h.stands
  rw [hrest, directiveAt?_of_standsBefore h'.stands, Option.some.injEq, Prod.mk.injEq] at hread
  obtain ⟨hdirective, hafter⟩ := hread
  cases p
  cases q
  simp_all

/-- A directive that is read where one may begin has its place there. -/
theorem In.of_directiveAt? {d : Directive} {u v rest : List Char}
    (h : directiveAt? marker v = some (d, rest)) (hfree : mayFollow u.getLast? = true) :
    In ⟨u, d, rest⟩ marker (u ++ v) := by
  obtain ⟨hv, hd⟩ := standsBefore_of_directiveAt? h
  refine ⟨by rw [hv], ⟨?_, ?_⟩, hd⟩
  · rw [start, List.take_left]
    exact mayFollow_iff.mp hfree
  · rw [start, List.drop_left]
    rcases eq_marker_append_or_none marker v with ⟨letter, t, hletter, rfl⟩ | hnone
    · exact ⟨letter, hletter, t, by simp⟩
    · rw [hnone] at h
      cases h

end Place

/-! ## Scans -/

/-- From a position on, each place holds the directive at the first position where one may
begin, at or behind the end of the one before it; behind the last of them none may
begin. -/
inductive Scans (marker s : List Char) : Nat → List Place → Prop where
  | none {n : Nat} (none : ∀ i, n ≤ i → ¬ BeginsAt marker s i) : Scans marker s n []
  | next {n : Nat} {p : Place} {ps : List Place} (place : p.In marker s) (le : n ≤ p.start)
      (first : ∀ i, n ≤ i → i < p.start → ¬ BeginsAt marker s i)
      (behind : Scans marker s p.stop ps) : Scans marker s n (p :: ps)

namespace Scans

variable {marker s : List Char} {n : Nat} {ps qs : List Place}

/-- A text has one scan. -/
theorem unique (h : Scans marker s n ps) (h' : Scans marker s n qs) : ps = qs := by
  induction h generalizing qs with
  | none hnone =>
      cases h' with
      | none _ => rfl
      | next place le _ _ => exact absurd place.begins (hnone _ le)
  | @next n p ps place le first _ ih =>
      cases h' with
      | none hnone => exact absurd place.begins (hnone _ le)
      | @next _ q qs place' le' first' behind' =>
          have hstart : p.start = q.start := by
            rcases Nat.lt_trichotomy p.start q.start with hlt | heq | hgt
            · exact absurd place.begins (first' _ le hlt)
            · exact heq
            · exact absurd place'.begins (first _ le' hgt)
          have hplace : p = q := place.eq_of_start place' hstart
          subst hplace
          rw [ih behind']

/-- A position where no directive may begin is passed over. -/
theorem skip (h : Scans marker s (n + 1) ps) (hn : ¬ BeginsAt marker s n) :
    Scans marker s n ps := by
  have hnot : ∀ i, n ≤ i → i < n + 1 → ¬ BeginsAt marker s i := by
    intro i hle hlt
    rwa [Nat.le_antisymm (Nat.le_of_lt_succ hlt) hle]
  cases h with
  | none hnone =>
      refine .none fun i hi => ?_
      by_cases hlt : i < n + 1
      · exact hnot i hi hlt
      · exact hnone i (Nat.le_of_not_lt hlt)
  | next place le first behind =>
      refine .next place (Nat.le_of_succ_le le) (fun i hi hstart => ?_) behind
      by_cases hlt : i < n + 1
      · exact hnot i hi hlt
      · exact first i (Nat.le_of_not_lt hlt) hstart

end Scans

/-! ## What is read -/

/-- Where no directive is read none may begin. -/
theorem not_beginsAt_of_eq_none {marker u v : List Char} (h : directiveAt? marker v = none) :
    ¬ BeginsAt marker (u ++ v) u.length := by
  rintro ⟨_, letter, hletter, t, ht⟩
  rw [List.drop_left, List.append_assoc] at ht
  rw [← ht, List.singleton_append, directiveAt?_marker_append hletter] at h
  cases h

theorem not_beginsAt_length (marker s : List Char) : ∀ i, s.length ≤ i → ¬ BeginsAt marker s i := by
  rintro i hi ⟨_, letter, _, hprefix⟩
  rw [List.drop_eq_nil_of_le hi, List.prefix_nil] at hprefix
  simp at hprefix

/-- The directives that are read from the rest of a text stand at the places of a scan. -/
theorem exists_scans (marker u v : List Char) :
    ∃ ps, Scans marker (u ++ v) u.length ps ∧
      ps.map Place.directive = directivesFrom marker u.getLast? v := by
  generalize hb : u.getLast? = b
  induction b, v using directivesFrom.induct marker generalizing u with
  | case1 b =>
      rw [List.append_nil]
      exact ⟨[], .none (not_beginsAt_length marker u), by rw [directivesFrom]; rfl⟩
  | case2 b c v hfree d rest hread ih =>
      have hplace := Place.In.of_directiveAt? hread (hb ▸ hfree)
      have hsplit := eq_append_of_directiveAt? hread
      have hlast : (u ++ (d.text ++ d.assignment.getD [])).getLast? =
          (d.text ++ d.assignment.getD []).getLast? := by
        obtain ⟨_, letter, _, _, htakes⟩ := standsBefore_of_directiveAt? hread
        rw [List.getLast?_append, htakes.text_eq, htakes.name_eq]
        simp [List.getLast?_append, List.getLast?_cons]
      obtain ⟨ps, hscan, hdirectives⟩ := ih _ hlast
      rw [List.append_assoc, List.append_assoc, ← hsplit, List.length_append] at hscan
      refine ⟨⟨u, d, rest⟩ :: ps, .next hplace (Nat.le_refl _) ?_ hscan, ?_⟩
      · intro i hle hlt
        exact absurd hlt (Nat.not_lt.mpr hle)
      · rw [directivesFrom_of_eq_some hfree hread, List.map_cons, hdirectives]
  | case3 b c v hfree hnone ih =>
      obtain ⟨ps, hscan, hdirectives⟩ := ih (u ++ [c]) (by simp)
      rw [List.append_assoc, List.singleton_append, List.length_append] at hscan
      refine ⟨ps, hscan.skip (not_beginsAt_of_eq_none hnone), ?_⟩
      rw [directivesFrom_of_eq_none hnone, hdirectives]
  | case4 b c v hfree ih =>
      obtain ⟨ps, hscan, hdirectives⟩ := ih (u ++ [c]) (by simp)
      rw [List.append_assoc, List.singleton_append, List.length_append] at hscan
      have hnot : ¬ BeginsAt marker (u ++ c :: v) u.length := by
        rintro ⟨hbegins, _⟩
        rw [List.take_left, hb, ← mayFollow_iff] at hbegins
        exact hfree hbegins
      refine ⟨ps, hscan.skip hnot, ?_⟩
      rw [directivesFrom_of_not_mayFollow hfree, hdirectives]

/-! ## The report -/

/-- Directives are reported exactly when some lack their values, and then all that do. -/
theorem invalidDirectives_mem_faults_iff (settings : Settings) (t : String) (ds : List String) :
    Fault.invalidDirectives ds ∈ faults settings (.text t) ↔
      ds ≠ [] ∧ ds = badDirectives settings t := by
  have htags : Fault.invalidDirectives ds ∉ tagFaults t := by
    unfold tagFaults
    split <;> simp
  rw [faults, textFaults]
  by_cases hblank : isBlankString t = true
  · have hnone : badDirectives settings t = [] := by
      rw [badDirectives, invalidDirectives, directives, directivesFrom_of_isBlankText hblank]
      rfl
    rw [if_pos hblank, hnone]
    simp
  · rw [if_neg hblank, List.mem_append, or_iff_right htags, directiveFaults]
    split
    · rename_i hnone
      simp [hnone]
    · rename_i hne
      rw [List.mem_singleton, Fault.invalidDirectives.injEq]
      constructor
      · rintro rfl
        exact ⟨hne, rfl⟩
      · exact fun h => h.2

/-! ## The law -/

/-- The directives of a text stand at the places of its one scan.  Those that lack their
values are the ones without an assignment whose names need one, in order and as often as
they stand there; a template is reported for its directives exactly when there are any,
and the report lists them all. -/
theorem directives_scan (marker : List Char) (valueless : List (List Char))
    (template : List Char) :
    (∃ ps, Scans marker template 0 ps ∧ (∀ qs, Scans marker template 0 qs → qs = ps) ∧
      directives marker template = ps.map Place.directive ∧
      invalidDirectives marker valueless template =
        (ps.filter fun p =>
          p.directive.assignment = none ∧ p.directive.name ∉ valueless).map
            fun p => p.directive.text) ∧
    ∀ (settings : Settings) (t : String) (ds : List String),
      Fault.invalidDirectives ds ∈ faults settings (.text t) ↔
        ds ≠ [] ∧ ds = (invalidDirectives settings.directivePrefix.toList
          (settings.valuelessDirectives.map String.toList) t.toList).map String.ofList := by
  refine ⟨?_, invalidDirectives_mem_faults_iff⟩
  obtain ⟨ps, hscan, hdirectives⟩ := exists_scans marker [] template
  have hall : directives marker template = ps.map Place.directive := hdirectives.symm
  refine ⟨ps, hscan, fun qs hqs => hqs.unique hscan, hall, ?_⟩
  rw [invalidDirectives, hall, List.filter_map, List.map_map]
  congr 2
  funext p
  cases ha : p.directive.assignment <;> simp [ha]

/-- The equals sign of an assignment begins no directive, even where the marker is one. -/
example : (directives ['='] "=a=b =c".toList).map Directive.text = ["=a".toList, "=c".toList] := by
  decide +kernel

end SingleFile.Template
