/-!
# Tables in insertion order

A table maps keys to values and keeps the order in which the keys first came
in: writing to a key that is present replaces its value in place, and a new key
goes to the end.

Main results:

- `keys_put`: what a write does to the order of the keys.
- `get?_put_self`, `get?_put_of_ne`: a write is seen under its key only.
- `nodup_keys_put`: no key ever occurs twice.
-/

namespace SingleFile

/-- Keys with their values, first come first. -/
abbrev Table (κ α : Type) := List (κ × α)

namespace Table

variable {κ α : Type} [DecidableEq κ]

/-- The keys in order. -/
def keys (t : Table κ α) : List κ :=
  t.map Prod.fst

/-- The value under a key. -/
def get? : Table κ α → κ → Option α
  | [], _ => none
  | (k', v) :: t, k => if k' = k then some v else get? t k

/-- The key is present. -/
def has (t : Table κ α) (k : κ) : Bool :=
  (t.get? k).isSome

/-- Writes a value under a key: in place when the key is present, at the end
when it is not. -/
def put : Table κ α → κ → α → Table κ α
  | [], k, v => [(k, v)]
  | (k', v') :: t, k, v => if k' = k then (k, v) :: t else (k', v') :: put t k v

/-- The table without a key. -/
def erase (t : Table κ α) (k : κ) : Table κ α :=
  t.filter fun e => e.1 ≠ k

/-- The table that a list of writes leaves, the last one of each key winning. -/
def ofEntries (es : List (κ × α)) : Table κ α :=
  es.foldl (fun t e => t.put e.1 e.2) []

/-! ## Views of the operations -/

@[simp]
theorem get?_nil (k : κ) : get? ([] : Table κ α) k = none :=
  rfl

theorem get?_eq_none_iff (t : Table κ α) (k : κ) : t.get? k = none ↔ k ∉ t.keys := by
  induction t with
  | nil => simp [keys]
  | cons e t ih =>
      obtain ⟨k', v⟩ := e
      by_cases h : k' = k
      · simp [get?, keys, h]
      · simp [get?, keys, h, Ne.symm h, ih]

theorem has_iff (t : Table κ α) (k : κ) : t.has k = true ↔ k ∈ t.keys := by
  rw [has, Option.isSome_iff_ne_none, ne_eq, get?_eq_none_iff, Classical.not_not]

/-- A write is read back under its key. -/
@[simp]
theorem get?_put_self (t : Table κ α) (k : κ) (v : α) : (t.put k v).get? k = some v := by
  induction t with
  | nil => simp [put, get?]
  | cons e t ih =>
      obtain ⟨k', v'⟩ := e
      by_cases h : k' = k <;> simp [put, get?, h, ih]

/-- A write is not seen under any other key. -/
theorem get?_put_of_ne (t : Table κ α) {k k' : κ} (v : α) (h : k ≠ k') :
    (t.put k v).get? k' = t.get? k' := by
  induction t with
  | nil => simp [put, get?, h]
  | cons e t ih =>
      obtain ⟨j, w⟩ := e
      by_cases hj : j = k
      · simp [put, get?, hj, h]
      · by_cases hk : j = k'
        · subst hk
          simp [put, get?, hj]
        · simp [put, get?, hj, hk, ih]

/-- A write keeps the keys of a present key and appends a new one. -/
theorem keys_put (t : Table κ α) (k : κ) (v : α) :
    (t.put k v).keys = if k ∈ t.keys then t.keys else t.keys ++ [k] := by
  induction t with
  | nil => simp [put, keys]
  | cons e t ih =>
      obtain ⟨j, w⟩ := e
      by_cases hj : j = k
      · simp [put, keys, hj]
      · simp only [keys] at ih
        simp only [put, hj, if_false, keys, List.map_cons, List.mem_cons, ih, Ne.symm hj, false_or]
        split <;> simp_all

/-- Writing never makes a key occur twice. -/
theorem nodup_keys_put {t : Table κ α} (k : κ) (v : α) (h : t.keys.Nodup) :
    (t.put k v).keys.Nodup := by
  rw [keys_put]
  split
  · exact h
  · rename_i hk
    rw [List.nodup_append]
    refine ⟨h, by simp, ?_⟩
    intro a ha b hb
    simp only [List.mem_singleton] at hb
    subst hb
    exact fun e => hk (e ▸ ha)

/-- A table of entries has each key once. -/
theorem nodup_keys_ofEntries (es : List (κ × α)) : (ofEntries es).keys.Nodup := by
  suffices h : ∀ t : Table κ α, t.keys.Nodup →
      (es.foldl (fun t e => t.put e.1 e.2) t).keys.Nodup from h [] (by simp [keys])
  induction es with
  | nil => exact fun t h => h
  | cons e es ih => exact fun t h => ih _ (nodup_keys_put e.1 e.2 h)

/-- Erasing a key leaves the other keys in order. -/
theorem keys_erase (t : Table κ α) (k : κ) : (t.erase k).keys = t.keys.filter (· ≠ k) := by
  simp [keys, erase, List.filter_map, Function.comp_def]

@[simp]
theorem get?_erase_self (t : Table κ α) (k : κ) : (t.erase k).get? k = none := by
  rw [get?_eq_none_iff, keys_erase]
  simp

end Table

end SingleFile
