/-!
# Sieves

What drops the records below a level is a sieve.  A configuration puts a sieve of its
level into force and notes the level on it; a later configuration goes by the note.
Where sieves come from is left open: a sieve may be new, without a note, or one that
was made before for the same level, with whatever was noted on it.

Main results:

- `Sieves.level?_put`: the sieve that is put into force has the level asked for.
- `Sieves.IsHonest.level?_eq_of_note?`: a note tells the level, however sieves are
  supplied.
- `Sieves.IsMarked.note?_eq_level?`: with one sieve for each level, every sieve that is
  put into force has its note.
-/

namespace SingleFile.Log

/-- What drops the records below a level, with the level that is noted on it. -/
structure Sieve where
  level : Nat
  note : Option Nat := none

/-- The sieves that were made, and the place of the one in force. -/
structure Sieves where
  made : List Sieve := []
  inForce : Option Nat := none

/-- The place of an earlier sieve, to be used again for a level. -/
abbrev SieveSupply := List Sieve → Nat → Option Nat

/-- There is one sieve for each level. -/
def SieveSupply.shared : SieveSupply :=
  fun made level => made.findIdx? (·.level == level)

namespace Sieves

/-- The sieve in force. -/
def current? (s : Sieves) : Option Sieve :=
  s.inForce.bind (s.made[·]?)

/-- The level of the sieve in force. -/
def level? (s : Sieves) : Option Nat :=
  s.current?.map Sieve.level

/-- The level that is noted on the sieve in force. -/
def note? (s : Sieves) : Option Nat :=
  s.current?.bind Sieve.note

/-- The place of the earlier sieve that is supplied for a level.  A sieve of another
level is never used. -/
def place? (s : Sieves) (supply : SieveSupply) (level : Nat) : Option Nat :=
  (supply s.made level).filter fun i => s.made[i]?.map Sieve.level == some level

/-- Puts a sieve of a level into force. -/
def put (s : Sieves) (supply : SieveSupply) (level : Nat) : Sieves :=
  match s.place? supply level with
  | some i => { s with inForce := some i }
  | none => { made := s.made ++ [{ level }], inForce := some s.made.length }

/-- Notes a level on the sieve in force. -/
def mark (s : Sieves) (level : Nat) : Sieves :=
  match s.inForce with
  | some i => { s with made := s.made.modify i fun x => { x with note := some level } }
  | none => s

/-- The sieve that is put in place for a level is one of that level. -/
theorem level?_of_place? {s : Sieves} {supply : SieveSupply} {level i : Nat}
    (h : s.place? supply level = some i) : s.made[i]?.map Sieve.level = some level := by
  simp only [place?, Option.filter_eq_some_iff, beq_iff_eq] at h
  exact h.2

/-- The sieve that is put into force has the level asked for. -/
@[simp]
theorem level?_put (s : Sieves) (supply : SieveSupply) (level : Nat) :
    (s.put supply level).level? = some level := by
  unfold put
  split
  · rename_i i hi
    exact level?_of_place? hi
  · simp [level?, current?]

/-- A mark changes the note of the current sieve and nothing else. -/
theorem current?_mark (s : Sieves) (level : Nat) :
    (s.mark level).current? = s.current?.map fun x => { x with note := some level } := by
  unfold mark current?
  cases h : s.inForce with
  | none => simp [h]
  | some i => simp

@[simp]
theorem level?_mark (s : Sieves) (level : Nat) : (s.mark level).level? = s.level? := by
  simp [level?, current?_mark, Function.comp_def]

/-- No sieve is lost. -/
theorem map_level_put_subset (s : Sieves) (supply : SieveSupply) (level : Nat) :
    s.made.map Sieve.level ⊆ (s.put supply level).made.map Sieve.level := by
  unfold put
  split
  · exact List.Subset.refl _
  · rw [List.map_append]
    exact List.subset_append_left _ _

@[simp]
theorem map_level_mark (s : Sieves) (level : Nat) :
    (s.mark level).made.map Sieve.level = s.made.map Sieve.level := by
  unfold mark
  split
  · apply List.ext_getElem? fun j => ?_
    simp only [List.getElem?_map, List.getElem?_modify]
    cases s.made[j]? with
    | none => rfl
    | some x => split <;> rfl
  · rfl

/-- The sieve in force is one of those that were made. -/
theorem mem_of_level? {s : Sieves} {level : Nat} (h : s.level? = some level) :
    level ∈ s.made.map Sieve.level := by
  obtain ⟨x, hx, hlevel⟩ := Option.map_eq_some_iff.mp h
  obtain ⟨i, -, hi⟩ := Option.bind_eq_some_iff.mp hx
  exact List.mem_map.mpr ⟨x, List.mem_of_getElem? hi, hlevel⟩

/-! ## Honest notes -/

/-- What is noted on a sieve is its level. -/
def IsHonest (s : Sieves) : Prop :=
  ∀ x ∈ s.made, ∀ level, x.note = some level → x.level = level

/-- A note tells the level of the sieve in force. -/
theorem IsHonest.level?_eq_of_note? {s : Sieves} (h : s.IsHonest) {level : Nat}
    (hnote : s.note? = some level) : s.level? = some level := by
  simp only [note?, Option.bind_eq_some_iff] at hnote
  obtain ⟨x, hx, hnote⟩ := hnote
  obtain ⟨i, -, hi⟩ := Option.bind_eq_some_iff.mp hx
  rw [level?, hx, Option.map_some, h x (List.mem_of_getElem? hi) level hnote]

/-- Putting a sieve in place keeps the notes honest. -/
theorem IsHonest.put {s : Sieves} (h : s.IsHonest) (supply : SieveSupply) (level : Nat) :
    (s.put supply level).IsHonest := by
  unfold Sieves.put
  split
  · exact h
  · intro x hx
    rcases List.mem_append.mp hx with hx | hx
    · exact h x hx
    · rw [List.mem_singleton] at hx
      simp [hx]

/-- A sieve behind a note is the one in force, or stands unchanged at another place. -/
theorem mem_made_mark {s : Sieves} {level : Nat} (hlevel : s.level? = some level) {x : Sieve}
    (hx : x ∈ (s.mark level).made) :
    x = ⟨level, some level⟩ ∨ ∃ i, s.inForce ≠ some i ∧ s.made[i]? = some x := by
  obtain ⟨y, hy, hylevel⟩ := Option.map_eq_some_iff.mp hlevel
  obtain ⟨i, hi, hiy⟩ := Option.bind_eq_some_iff.mp hy
  simp only [mark, hi] at hx
  obtain ⟨j, hj⟩ := List.mem_iff_getElem?.mp hx
  rw [List.getElem?_modify] at hj
  by_cases hij : i = j
  · left
    rw [← hij, hiy] at hj
    simp only [if_true, Option.map_eq_map, Option.map_some, Option.some.injEq] at hj
    rw [← hj, hylevel]
  · right
    simp only [if_neg hij, Option.map_eq_map, Option.map_id'] at hj
    exact ⟨j, by simpa [hi] using hij, hj⟩

/-- Marking the current sieve with its own level keeps the notes honest. -/
theorem IsHonest.mark {s : Sieves} (h : s.IsHonest) {level : Nat}
    (hlevel : s.level? = some level) : (s.mark level).IsHonest := by
  intro x hx
  rcases mem_made_mark hlevel hx with rfl | ⟨i, -, hi⟩
  · simp
  · exact h x (List.mem_of_getElem? hi)

/-! ## One sieve for each level -/

/-- Every sieve that was made has its level noted on it. -/
def IsMarked (s : Sieves) : Prop :=
  ∀ x ∈ s.made, x.note = some x.level

/-- The note of a marked sieve is its level. -/
theorem IsMarked.note?_eq_level? {s : Sieves} (h : s.IsMarked) : s.note? = s.level? := by
  unfold note? level?
  cases hx : s.current? with
  | none => rfl
  | some x =>
      obtain ⟨i, -, hi⟩ := Option.bind_eq_some_iff.mp hx
      exact h x (List.mem_of_getElem? hi)

/-- A sieve that was made for a level is used again. -/
theorem made_put_shared {s : Sieves} {level : Nat} (h : level ∈ s.made.map Sieve.level) :
    (s.put .shared level).made = s.made := by
  obtain ⟨i, hi⟩ : ∃ i, s.made.findIdx? (·.level == level) = some i := by
    rw [← Option.isSome_iff_exists, List.findIdx?_isSome, List.any_eq_true]
    simpa using List.mem_map.mp h
  obtain ⟨hlt, hlevel, -⟩ := List.findIdx?_eq_some_iff_getElem.mp hi
  have hplace : s.place? .shared level = some i := by
    simp only [place?, SieveSupply.shared, hi]
    simpa [hlt] using hlevel
  simp [put, hplace]

/-- Only the sieve that is put into force may be new. -/
theorem mem_made_of_put {s : Sieves} {supply : SieveSupply} {level i : Nat} {x : Sieve}
    (hi : (s.put supply level).inForce ≠ some i)
    (hx : (s.put supply level).made[i]? = some x) : x ∈ s.made := by
  unfold put at hi hx
  split at hi <;> rename_i hplace <;> simp only [hplace] at hx
  · exact List.mem_of_getElem? hx
  · have hne : i ≠ s.made.length := fun h => hi (by rw [h])
    have hlt : i < s.made.length := by
      have hbound := (List.getElem?_eq_some_iff.mp hx).1
      rw [List.length_append, List.length_singleton] at hbound
      omega
    rw [List.getElem?_append_left hlt] at hx
    exact List.mem_of_getElem? hx

/-- A sieve that is put into force gets its note, and the others have theirs. -/
theorem IsMarked.mark_put {s : Sieves} (h : s.IsMarked) (supply : SieveSupply) (level : Nat) :
    ((s.put supply level).mark level).IsMarked := by
  intro x hx
  rcases mem_made_mark (level?_put s supply level) hx with rfl | ⟨i, hne, hi⟩
  · rfl
  · exact h x (mem_made_of_put hne hi)

end Sieves

end SingleFile.Log
