import Mathlib.Data.List.Induction
import SingleFile.Proofs.Log.Levels
import SingleFile.Proofs.Log.Sieves

/-!
# The level in force

Whatever is configured, in any order, records come out from the level on that the last
configuration stands for; also if that one changed nothing because it found its level
noted on the sieve in force.  This holds however sieves are supplied, with one exception.
A configuration whose log file is not opened leaves a sieve of its own level behind,
without the root threshold that belongs to it and without disabling anything.  From then
on records have to reach the root threshold that was set before, until a configuration
is carried out that is not refused its file; and one that asks for the same level is not
carried out.

Main results:

- Theorem `SievedLogging.Follows.perform`: what a configuration that is carried out leaves.
- Theorem `SievedLogging.follows_history`: every run follows from what was carried out.
- Theorem `SievedLogging.tracks_after`: with one sieve for each level, this is how logging
  is configured.
- Theorem `SievedLogging.level_in_force_iff`: when the level in force is that of the last
  configuration.
- Theorem `Logging.level_lost`: runs after which it is not.
-/

namespace SingleFile.Log

/-! ## Histories -/

/-- The root threshold behind configurations that were carried out: that of the last one
which opened a file. -/
def rootAfter (past : List Attempt) : Nat :=
  past.foldl (fun root a => if a.SelectsFile ∧ ¬ a.IsRefused then a.asked else root)
    Severity.warning.rank

/-- The rank from which records come out behind configurations that were carried out,
the last of which is given apart. -/
def reach (before : List Attempt) (b : Attempt) : Nat :=
  if b.IsRefused then max b.asked (rootAfter before) else b.left

/-- The last configuration that was carried out was not refused its log file; or what it
asked for and the root threshold set before come to the level of a severity anyway. -/
def Unhindered (past : List Attempt) (s : Severity) : Prop :=
  ∀ before b, past = before ++ [b] → b.IsRefused → max b.asked (rootAfter before) = s.rank

/-! ## Runs over any supply of sieves -/

/-- Logging together with the sieves that its thresholds stand for. -/
structure SievedLogging where
  logging : Logging := {}
  sieves : Sieves := {}

namespace SievedLogging

variable (supply : SieveSupply)

/-- A configuration finds its level noted on the sieve in force, and does not disable
logging. -/
def isSettled (p : SievedLogging) (a : Attempt) : Bool :=
  p.sieves.note? == some a.asked && !a.request.disable

/-- Carries a configuration out. -/
def perform (p : SievedLogging) (a : Attempt) : SievedLogging :=
  let l := { p.logging with directories := a.directories }
  let marked := (p.sieves.put supply a.asked).mark a.asked
  if a.IsRefused then { logging := l.interrupt a.environment a.request, sieves := marked }
  else
    { logging := l.apply a.environment a.request
      sieves :=
        if a.request.disable then marked.put supply Severity.critical.rank else marked }

/-- Configures logging: a configuration that is settled is not carried out. -/
def call (p : SievedLogging) (a : Attempt) : SievedLogging :=
  if p.isSettled a then { p with logging := { p.logging with directories := a.directories } }
  else p.perform supply a

/-- Logging and its sieves after configurations. -/
def after (p : SievedLogging) (as : List Attempt) : SievedLogging :=
  as.foldl (call supply) p

/-- The configurations of a row that are carried out. -/
def carriedOut (p : SievedLogging) : List Attempt → List Attempt
  | [] => []
  | a :: as =>
      if p.isSettled a then carriedOut (p.call supply a) as
      else a :: carriedOut (p.call supply a) as

/-- Logging and its sieves as the program starts with them. -/
def start (env : Environment) (directories : List String) : SievedLogging :=
  ({} : SievedLogging).perform supply (.first env directories)

/-- The configurations of a run that are carried out.  The first one always is. -/
def history (env : Environment) (directories : List String) (as : List Attempt) :
    List Attempt :=
  .first env directories :: (start supply env directories).carriedOut supply as

/-- A record comes out: it passes the sieve in force, and what is behind it. -/
def LetsThrough (p : SievedLogging) (r : Record) : Prop :=
  ∃ level, p.sieves.level? = some level ∧ { p.logging with threshold := level }.release r ≠ []

/-! ## What is carried out -/

end SievedLogging

/-- The last configuration decides the root threshold if it opens a file. -/
theorem rootAfter_append (past : List Attempt) (a : Attempt) :
    rootAfter (past ++ [a]) =
      if a.SelectsFile ∧ ¬ a.IsRefused then a.asked else rootAfter past := by
  simp [rootAfter, List.foldl_append]

namespace SievedLogging

variable {supply : SieveSupply}

/-- Logging and its sieves are as the configurations that were carried out leave them. -/
structure Follows (p : SievedLogging) (past : List Attempt) : Prop where
  honest : p.sieves.IsHonest
  root_eq : p.logging.rootThreshold = rootAfter past
  root_of_closed : p.logging.handlers = [] → rootAfter past = Severity.warning.rank
  level_eq : ∀ b, past.getLast? = some b → p.sieves.level? = some b.leaves
  target_eq : ∀ b, past.getLast? = some b → (p.logging.target = .files ↔ b.SelectsFile)

/-- What a configuration that is carried out leaves. -/
theorem Follows.perform {p : SievedLogging} {past : List Attempt} (h : p.Follows past)
    (a : Attempt) : (p.perform supply a).Follows (past ++ [a]) := by
  have hmarked : ((p.sieves.put supply a.asked).mark a.asked).IsHonest :=
    (h.honest.put supply a.asked).mark (Sieves.level?_put p.sieves supply a.asked)
  have hlast {b : Attempt} (hb : (past ++ [a]).getLast? = some b) : b = a := by
    rw [List.getLast?_concat, Option.some.injEq] at hb
    exact hb.symm
  unfold SievedLogging.perform
  split <;> rename_i hrefused
  · have hroot : rootAfter (past ++ [a]) = rootAfter past := by
      rw [rootAfter_append, if_neg fun hopens => hopens.2 hrefused]
    refine ⟨hmarked, ?_, ?_, fun b hb => ?_, fun b hb => ?_⟩
    · rw [hroot, ← h.root_eq]
      rfl
    · rw [hroot]
      exact h.root_of_closed
    · simp [hlast hb, Attempt.leaves, hrefused]
    · simp [hlast hb, Logging.interrupt, hrefused.1]
  · refine ⟨?_, ?_, ?_, fun b hb => ?_, fun b hb => ?_⟩
    · dsimp only
      split
      · exact hmarked.put supply _
      · exact hmarked
    · rw [rootAfter_append, Logging.rootThreshold_apply]
      simp [hrefused, Attempt.SelectsFile, h.root_eq, Call.asked]
    · rw [rootAfter_append, Logging.handlers_apply_eq_nil_iff]
      rintro ⟨hnone, hclosed⟩
      simpa [Attempt.SelectsFile, hnone] using h.root_of_closed hclosed
    · rw [hlast hb, Attempt.leaves, if_neg hrefused, Call.left]
      dsimp only
      split <;> simp
    · rw [hlast hb]
      exact Logging.target_apply_eq_files_iff _ _ _

/-- A configuration that is settled stands for the level in force. -/
theorem Follows.left_eq_of_isSettled {p : SievedLogging} {past : List Attempt} (h : p.Follows past)
    {a : Attempt} (hsettled : p.isSettled a = true) {b : Attempt}
    (hb : past.getLast? = some b) : a.left = b.leaves := by
  simp only [isSettled, Bool.and_eq_true, beq_iff_eq, Bool.not_eq_true'] at hsettled
  obtain ⟨hnote, hdisable⟩ := hsettled
  have hlevel : some a.asked = some b.leaves :=
    (h.honest.level?_eq_of_note? hnote).symm.trans (h.level_eq b hb)
  simpa [Call.left, hdisable] using hlevel

/-- What a configuration leaves: it lengthens the history if it is carried out. -/
theorem Follows.call {p : SievedLogging} {past : List Attempt} (h : p.Follows past) (a : Attempt) :
    (p.call supply a).Follows (past ++ if p.isSettled a then [] else [a]) := by
  unfold SievedLogging.call
  split
  · rw [List.append_nil]
    exact ⟨h.honest, h.root_eq, h.root_of_closed, h.level_eq, h.target_eq⟩
  · exact h.perform a

/-- What a row of configurations leaves. -/
theorem Follows.after {p : SievedLogging} {past : List Attempt} (h : p.Follows past)
    (as : List Attempt) : (p.after supply as).Follows (past ++ p.carriedOut supply as) := by
  induction as generalizing p past with
  | nil => simpa [SievedLogging.after, carriedOut] using h
  | cons a as ih =>
      have hcall : (p.call supply a).Follows
          (past ++ if p.isSettled a then [] else [a]) := h.call a
      have hrest := ih hcall
      rw [carriedOut]
      split <;> rename_i hsettled <;> simpa [SievedLogging.after, hsettled] using hrest

/-- Logging follows its first configuration when it starts. -/
theorem follows_start (env : Environment) (directories : List String) :
    (start supply env directories).Follows [.first env directories] := by
  have hnone : ({} : SievedLogging).Follows [] := by
    refine ⟨?_, rfl, fun _ => rfl, ?_, ?_⟩ <;> simp [Sieves.IsHonest]
  exact hnone.perform (.first env directories)

/-- In every run logging is as the configurations that were carried out leave it. -/
theorem follows_history (env : Environment) (directories : List String) (as : List Attempt) :
    ((start supply env directories).after supply as).Follows
      (history supply env directories as) :=
  (follows_start env directories).after as

/-- A configuration behind a run is carried out if it is not settled there. -/
theorem carriedOut_append (p : SievedLogging) (as : List Attempt) (a : Attempt) :
    p.carriedOut supply (as ++ [a]) =
      p.carriedOut supply as ++ if (p.after supply as).isSettled a then [] else [a] := by
  induction as generalizing p with
  | nil =>
      simp only [List.nil_append, carriedOut, after, List.foldl_nil]
      split <;> simp [*]
  | cons b as ih =>
      have hafter : p.after supply (b :: as) = (p.call supply b).after supply as := rfl
      rw [List.cons_append, carriedOut, carriedOut, ih, hafter]
      split <;> rfl

/-- A configuration behind a run lengthens its history if it is not settled there. -/
theorem history_append (env : Environment) (directories : List String) (as : List Attempt)
    (a : Attempt) :
    history supply env directories (as ++ [a]) = history supply env directories as ++
      if ((start supply env directories).after supply as).isSettled a then [] else [a] := by
  rw [history, carriedOut_append]
  rfl

end SievedLogging

/-! ## What comes out -/

/-- A configuration leaves no lower threshold than it asks for. -/
theorem Call.asked_le_left (c : Call) : c.asked ≤ c.left := by
  unfold left
  split
  · exact Logging.rank_le_critical _
  · exact Nat.le_refl _

theorem Call.exists_rank_eq_asked (c : Call) : ∃ s : Severity, c.asked = s.rank :=
  ⟨_, rfl⟩

/-- The root threshold is that of a severity. -/
theorem exists_rank_eq_rootAfter (past : List Attempt) :
    ∃ s : Severity, rootAfter past = s.rank := by
  induction past using List.reverseRecOn with
  | nil => exact ⟨.warning, rfl⟩
  | append_singleton past a ih =>
      rw [rootAfter_append]
      split
      · exact a.exists_rank_eq_asked
      · exact ih

/-- Records come out from the rank of some severity on. -/
theorem exists_rank_eq_reach (before : List Attempt) (b : Attempt) :
    ∃ s : Severity, reach before b = s.rank := by
  unfold reach
  split
  · rcases Nat.le_total b.asked (rootAfter before) with hle | hle
    · rw [Nat.max_eq_right hle]
      exact exists_rank_eq_rootAfter before
    · rw [Nat.max_eq_left hle]
      exact b.exists_rank_eq_asked
  · obtain ⟨s, hs⟩ := b.exists_resolves
    exact ⟨s, hs.left_eq⟩

/-- Nothing hinders the level that the last configuration carried out stands for if
records come out from there on. -/
theorem unhindered_iff {before : List Attempt} {b : Attempt} {s : Severity}
    (h : ¬ b.IsRefused → b.left = s.rank) :
    Unhindered (before ++ [b]) s ↔ reach before b = s.rank := by
  unfold reach
  constructor
  · intro hfree
    split
    · rename_i hrefused
      exact hfree before b rfl hrefused
    · rename_i hrefused
      exact h hrefused
  · intro hreach before' b' heq hrefused
    obtain ⟨rfl, hb⟩ := List.append_inj' heq rfl
    obtain rfl : b = b' := List.singleton_inj.mp hb
    rwa [if_pos hrefused] at hreach

namespace SievedLogging

variable {supply : SieveSupply}

/-- Which records come out behind configurations that were carried out. -/
theorem Follows.letsThrough_iff {p : SievedLogging} {before : List Attempt} {b : Attempt}
    (h : p.Follows (before ++ [b])) (r : Record) :
    p.LetsThrough r ↔ reach before b ≤ r.severity.rank := by
  have hlast : (before ++ [b]).getLast? = some b := List.getLast?_concat
  have hclosed : p.logging.handlers = [] →
      p.logging.rootThreshold = Severity.warning.rank :=
    fun hnil => h.root_eq.trans (h.root_of_closed hnil)
  have hthrough : p.LetsThrough r ↔ b.leaves ≤ r.severity.rank ∧
      (b.SelectsFile → rootAfter (before ++ [b]) ≤ r.severity.rank) := by
    have hrelease := Logging.release_ne_nil_iff
      (l := { p.logging with threshold := b.leaves }) hclosed r
    simpa [LetsThrough, h.level_eq b hlast, h.target_eq b hlast, h.root_eq] using hrelease
  rw [hthrough, rootAfter_append]
  by_cases hrefused : b.IsRefused
  · rw [Attempt.leaves, reach, if_pos hrefused, if_pos hrefused, if_neg fun h => h.2 hrefused,
      Nat.max_le, imp_iff_right hrefused.1]
  · have hle : b.left ≤ r.severity.rank → b.asked ≤ r.severity.rank :=
      Nat.le_trans b.asked_le_left
    simp +contextual [Attempt.leaves, reach, hrefused, hle]

/-- The records that come out are those of a level exactly if records come out from
its rank on. -/
theorem Follows.forall_letsThrough_iff {p : SievedLogging} {before : List Attempt} {b : Attempt}
    (h : p.Follows (before ++ [b])) (s : Severity) :
    (∀ r, p.LetsThrough r ↔ s.rank ≤ r.severity.rank) ↔ reach before b = s.rank := by
  simp only [h.letsThrough_iff]
  constructor
  · intro hall
    obtain ⟨t, ht⟩ := exists_rank_eq_reach before b
    have hst : reach before b ≤ s.rank :=
      (hall { severity := s, event := "" }).mpr (Nat.le_refl _)
    have hts : s.rank ≤ t.rank :=
      (hall { severity := t, event := "" }).mp (Nat.le_of_eq ht)
    omega
  · intro hreach r
    rw [hreach]

/-! ## One sieve for each level -/

/-- There is one marked sieve for each level, and the threshold of logging is the level of
the one in force. -/
structure Tracks (p : SievedLogging) (l : Logging) : Prop where
  logging_eq : p.logging = l
  marked : p.sieves.IsMarked
  level_eq : p.sieves.level? = some l.threshold
  critical_mem : Severity.critical.rank ∈ p.sieves.made.map Sieve.level

/-- What a configuration leaves that is carried out with one sieve for each level.  The
sieve of disabled logging is there already, or the configuration asks for it. -/
theorem tracks_perform {p : SievedLogging} (hmarked : p.sieves.IsMarked) {a : Attempt}
    (hcritical : Severity.critical.rank ∈ p.sieves.made.map Sieve.level ∨
      a.asked = Severity.critical.rank) :
    (p.perform .shared a).Tracks
      (if a.IsRefused then
        { p.logging with directories := a.directories }.interrupt a.environment a.request
      else { p.logging with directories := a.directories }.apply a.environment a.request) := by
  have hput : (p.sieves.put .shared a.asked).level? = some a.asked :=
    Sieves.level?_put _ _ _
  have hall : ((p.sieves.put .shared a.asked).mark a.asked).IsMarked :=
    hmarked.mark_put .shared a.asked
  have hmem : Severity.critical.rank ∈
      ((p.sieves.put .shared a.asked).mark a.asked).made.map Sieve.level := by
    rw [Sieves.map_level_mark]
    rcases hcritical with hmem | hasked
    · exact Sieves.map_level_put_subset p.sieves .shared a.asked hmem
    · exact hasked ▸ Sieves.mem_of_level? hput
  unfold perform
  split
  · exact ⟨rfl, hall, by simp [Logging.interrupt, Call.asked], hmem⟩
  · dsimp only
    cases hdisable : a.request.disable with
    | false =>
        refine ⟨rfl, hall, ?_, hmem⟩
        simp [Logging.threshold_apply, hdisable, Call.asked]
    | true =>
        have hmade := Sieves.made_put_shared hmem
        refine ⟨rfl, ?_, ?_, ?_⟩
        · intro x hx
          exact hall x (hmade ▸ hx)
        · simp [Logging.threshold_apply, hdisable]
        · rw [if_pos rfl, hmade]
          exact hmem

/-- The sieve in force has its note, so that a configuration is settled by the note exactly
if it is by the threshold. -/
theorem Tracks.isSettled_eq {p : SievedLogging} {l : Logging} (h : p.Tracks l) (a : Attempt) :
    p.isSettled a = { l with directories := a.directories }.isSettled a.environment a.request := by
  rw [isSettled, h.marked.note?_eq_level?, h.level_eq]
  rfl

/-- With shared sieves an attempt leaves what logging without sieves leaves. -/
theorem Tracks.call {p : SievedLogging} {l : Logging} (h : p.Tracks l) (a : Attempt) :
    (p.call .shared a).Tracks (l.tried a) := by
  have hsettled := h.isSettled_eq a
  unfold SievedLogging.call
  split <;> rename_i hcase
  · rw [hcase] at hsettled
    have htried : l.tried a = { l with directories := a.directories } := by
      rw [Logging.tried, Logging.attempt_of_isSettled hsettled.symm]
    rw [htried]
    exact ⟨by rw [h.logging_eq], h.marked, h.level_eq, h.critical_mem⟩
  · rw [Bool.not_eq_true] at hcase
    rw [hcase] at hsettled
    rw [Logging.tried, Logging.attempt_of_not_isSettled hsettled.symm, ← h.logging_eq]
    exact tracks_perform h.marked (.inl h.critical_mem)

/-- With shared sieves logging starts as it does without sieves. -/
theorem tracks_start (env : Environment) (directories : List String) :
    (start .shared env directories).Tracks (Logging.start env directories) := by
  have hmarked : ({} : SievedLogging).sieves.IsMarked := by simp [Sieves.IsMarked]
  have hasked : (Attempt.first env directories).asked = Severity.critical.rank := by
    have hlevel : (Attempt.first env directories).request.level = some "CRITICAL" := rfl
    rw [Call.asked_of_level hlevel]
    decide +kernel
  have hopened : ¬ (Attempt.first env directories).IsRefused := by
    simp [Attempt.IsRefused, Attempt.first]
  have htracks := tracks_perform hmarked (.inr hasked)
  rwa [if_neg hopened] at htracks

/-- With one sieve for each level, logging keeps to the sieves in every run. -/
theorem tracks_after (env : Environment) (directories : List String) (as : List Attempt) :
    ((start .shared env directories).after .shared as).Tracks
      ((Logging.start env directories).afterAttempts as) := by
  induction as using List.reverseRecOn with
  | nil => exact tracks_start env directories
  | append_singleton as a ih =>
      rw [after, Logging.afterAttempts, List.foldl_append, List.foldl_append]
      exact ih.call a

/-- With shared sieves the same records come out as without sieves. -/
theorem Tracks.letsThrough_iff {p : SievedLogging} {l : Logging} (h : p.Tracks l) (r : Record) :
    p.LetsThrough r ↔ l.release r ≠ [] := by
  simp [LetsThrough, h.level_eq, h.logging_eq]

/-! ## The level of the last configuration -/

/-- A configuration that is carried out is one of the run. -/
theorem mem_of_mem_carriedOut {p : SievedLogging} {as : List Attempt} {a : Attempt}
    (h : a ∈ p.carriedOut supply as) : a ∈ as := by
  induction as generalizing p with
  | nil => exact h
  | cons b as ih =>
      rw [carriedOut] at h
      split at h
      · exact List.mem_cons_of_mem b (ih h)
      · rcases List.mem_cons.mp h with rfl | h
        · exact List.mem_cons_self
        · exact List.mem_cons_of_mem b (ih h)

/-- Nothing hinders a level in a run in which no log file is refused. -/
theorem unhindered_history (env : Environment) (directories : List String)
    {as : List Attempt} (h : ∀ a ∈ as, ¬ a.IsRefused) (s : Severity) :
    Unhindered (history supply env directories as) s := by
  intro before b hb hrefused
  have hmem : b ∈ history supply env directories as := by simp [hb]
  rcases List.mem_cons.mp hmem with rfl | hmem
  · simp [Attempt.IsRefused, Attempt.first] at hrefused
  · exact absurd hrefused (h b (mem_of_mem_carriedOut hmem))

/-- Behind the last configuration of a run, the configurations that were carried out end
with one that stands for the same level, unless that one was refused its log file. -/
theorem exists_history_eq (supply : SieveSupply) (env : Environment) (directories : List String)
    (past : List Attempt) (last : Attempt) :
    ∃ before b, history supply env directories (past ++ [last]) = before ++ [b] ∧
      (¬ b.IsRefused → b.left = last.left) := by
  have hfollows : ((start supply env directories).after supply past).Follows
      (history supply env directories past) := follows_history env directories past
  rw [history_append]
  split
  · rename_i hsettled
    have hne : history supply env directories past ≠ [] := List.cons_ne_nil _ _
    refine ⟨(history supply env directories past).dropLast,
      (history supply env directories past).getLast hne, ?_, ?_⟩
    · rw [List.append_nil]
      exact (List.dropLast_concat_getLast hne).symm
    · intro hrefused
      rw [hfollows.left_eq_of_isSettled hsettled (List.getLast?_eq_some_getLast hne),
        Attempt.leaves, if_neg hrefused]
  · exact ⟨_, _, rfl, fun _ => rfl⟩

/-- The level in force after every run of configurations, however sieves are supplied.
The last configuration stands for one level, and the records that come out are those of
that level on exactly if nothing hinders it; so also do they agree exactly then with the
records that would come out if the last configuration were carried out, when it is
settled.  Nothing hinders a level while no log file is refused.  With one sieve for each
level, these are the records that logging writes. -/
theorem level_in_force_iff (supply : SieveSupply) (env : Environment) (directories : List String)
    (past : List Attempt) (last : Attempt) :
    let p := (start supply env directories).after supply past
    let q := p.call supply last
    let done := history supply env directories (past ++ [last])
    ∃ s : Severity, (∀ t, last.Resolves t ↔ t = s) ∧
      ((∀ r, q.LetsThrough r ↔ s.rank ≤ r.severity.rank) ↔ Unhindered done s) ∧
      (p.isSettled last = true → ¬ last.IsRefused →
        ((∀ r, q.LetsThrough r ↔ (p.perform supply last).LetsThrough r) ↔
          Unhindered done s)) ∧
      ((∀ a ∈ past ++ [last], ¬ a.IsRefused) → Unhindered done s) ∧
      (supply = .shared → ∀ r, q.LetsThrough r ↔
        ((Logging.start env directories).afterAttempts (past ++ [last])).release r ≠ []) := by
  intro p q done
  obtain ⟨s, hs⟩ := last.exists_resolves
  have hleft : last.left = s.rank := hs.left_eq
  have hafter : (start supply env directories).after supply (past ++ [last]) = q := by
    rw [after, List.foldl_append]
    rfl
  have hp : p.Follows (history supply env directories past) :=
    follows_history env directories past
  obtain ⟨before, b, hdone, hb⟩ := exists_history_eq supply env directories past last
  have hq : q.Follows (before ++ [b]) := by
    rw [← hafter, ← hdone]
    exact follows_history env directories (past ++ [last])
  have hfree : Unhindered done s ↔ reach before b = s.rank := by
    rw [show done = before ++ [b] from hdone]
    exact unhindered_iff fun hrefused => (hb hrefused).trans hleft
  refine ⟨s, fun t => ?_, ?_, ?_, fun hopened => ?_, ?_⟩
  · rw [last.resolves_iff, hleft]
    exact ⟨fun h => Severity.rank_injective h.symm, fun h => by rw [h]⟩
  · rw [hfree]
    exact hq.forall_letsThrough_iff s
  · intro _ hopened
    have hperformed (r : Record) :
        (p.perform supply last).LetsThrough r ↔ s.rank ≤ r.severity.rank := by
      have hfollows : (p.perform supply last).Follows (_ ++ [last]) := hp.perform last
      rw [hfollows.letsThrough_iff r, reach, if_neg hopened, hleft]
    simp only [hperformed]
    rw [hfree]
    exact hq.forall_letsThrough_iff s
  · exact unhindered_history env directories hopened s
  · rintro rfl r
    have htracks := tracks_after env directories (past ++ [last])
    rw [hafter] at htracks
    exact htracks.letsThrough_iff r

/-- After logging was disabled while a file was selected, asking for the highest level
changes nothing, and it need not: the same records come out as if it were carried out. -/
theorem level_in_force_disabled :
    let disabling : Attempt :=
      { request := { level := some "INFO", file := some "a.log", disable := true } }
    let last : Attempt := { request := { level := some "critical" } }
    let p := (start .shared [] []).after .shared [disabling]
    let q := p.call .shared last
    p.isSettled last = true ∧ ¬ last.IsRefused ∧
      (∀ r, q.LetsThrough r ↔ Severity.critical.rank ≤ r.severity.rank) ∧
      (∀ r, q.LetsThrough r ↔ (p.perform .shared last).LetsThrough r) ∧
      ∀ r, q.LetsThrough r ↔
        ((Logging.start [] []).afterAttempts [disabling, last]).release r ≠ [] := by
  intro disabling last p q
  have hsettled : p.isSettled last = true := by decide +kernel
  have hopened : ¬ last.IsRefused := by decide +kernel
  have hall : ∀ a ∈ [disabling] ++ [last], ¬ a.IsRefused := by decide +kernel
  obtain ⟨s, hresolves, hlevel, hagree, hfree, hlogging⟩ :=
    level_in_force_iff .shared [] [] [disabling] last
  have hs : Severity.critical = s :=
    (hresolves .critical).mp (.named rfl rfl (by decide +kernel))
  subst hs
  exact ⟨hsettled, hopened, hlevel.mpr (hfree hall),
    (hagree hsettled hopened).mpr (hfree hall), hlogging rfl⟩

end SievedLogging

/-- The level of the last configuration is not in force: the first configuration is
refused its log file, and the next one asks for the same level without a file.  A record
of that level does not come out, though it would if the configuration were carried out.
Nor does a configuration disable logging when it is refused its log file. -/
theorem Logging.level_lost :
    let l := start [] []
    let refused : Attempt :=
      { request := { level := some "INFO", file := some "a\x00.log" }
        refusal? := l.refusal? "a\x00.log" }
    let again : Attempt := { request := { level := some "INFO" } }
    let disabling : Attempt :=
      { refused with request := { refused.request with disable := true } }
    (again.Resolves .info ∧
      (l.afterAttempts [refused, again]).release { severity := .info, event := "saved" } = [] ∧
      ((l.afterAttempts [refused]).apply [] again.request).release
        { severity := .info, event := "saved" } ≠ []) ∧
    disabling.Resolves .critical ∧
      (l.afterAttempts [disabling]).release { severity := .error, event := "lost" } ≠ [] := by
  refine ⟨⟨.named rfl rfl ?_, ?_, ?_⟩, .disabled rfl, ?_⟩ <;> decide +kernel

end SingleFile.Log
