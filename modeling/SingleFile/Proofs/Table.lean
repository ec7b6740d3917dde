import SingleFile.Table

/-!
# Reading tables

What a table holds under a key after a list of writes, after its values were
mapped, and after it was continued or shortened.

Main results:

- Theorem `get?_ofEntries_cons`: of the writes of one key the last counts.
- Theorem `ofEntries_of_nodup`: writes of different keys are kept as they come.
- Theorem `keys_ofEntries`: each key stands where it was first written.
- Theorem `mem_ofEntries_iff`: under each key stands what was written last.
- Theorem `get?_map`: a table whose values are mapped is read under the same keys.
- Theorem `get?_of_prefix`: a table that continues another holds what that holds.
-/

namespace SingleFile

namespace Table

variable {κ α : Type} [DecidableEq κ]

/-! ## Repeated writes -/

/-- Of entries that are put in order the last one of a key counts, else the table's own. -/
theorem get?_foldl_put (es : List (κ × α)) (t : Table κ α) (k : κ) :
    (es.foldl (fun t e => t.put e.1 e.2) t).get? k = ((ofEntries es).get? k).or (t.get? k) := by
  induction es generalizing t with
  | nil => rfl
  | cons e es ih =>
      have hempty : ofEntries (e :: es) =
          es.foldl (fun t e => t.put e.1 e.2) (put [] e.1 e.2) := rfl
      rw [List.foldl_cons, ih, hempty, ih (put [] e.1 e.2)]
      by_cases hk : e.1 = k
      · subst hk
        simp
      · rw [get?_put_of_ne t e.2 hk, get?_put_of_ne [] e.2 hk]
        simp

/-- The last write of a key counts. -/
theorem get?_ofEntries_cons (k k' : κ) (v : α) (es : List (κ × α)) :
    (ofEntries ((k, v) :: es)).get? k' =
      ((ofEntries es).get? k').or (if k = k' then some v else none) := by
  have hfirst : (put [] k v).get? k' = if k = k' then some v else none := by
    simp [put, get?]
  rw [← hfirst, ← get?_foldl_put]
  rfl

theorem mem_put {t : Table κ α} {k : κ} {v : α} {e : κ × α} (h : e ∈ t.put k v) :
    e = (k, v) ∨ e ∈ t := by
  induction t with
  | nil => exact .inl (List.mem_singleton.mp h)
  | cons first t ih =>
      obtain ⟨k', v'⟩ := first
      by_cases hk : k' = k
      · simp only [put, hk, if_true, List.mem_cons] at h
        rcases h with h | h
        · exact .inl h
        · exact .inr (List.mem_cons_of_mem _ h)
      · simp only [put, hk, if_false, List.mem_cons] at h
        rcases h with h | h
        · exact .inr (by rw [h]; exact List.mem_cons_self)
        · rcases ih h with h | h
          · exact .inl h
          · exact .inr (List.mem_cons_of_mem _ h)

/-- What stands in a table was written to it. -/
theorem mem_of_mem_ofEntries {es : List (κ × α)} {e : κ × α} (h : e ∈ ofEntries es) : e ∈ es := by
  suffices hfold : ∀ t : Table κ α, e ∈ es.foldl (fun t e => t.put e.1 e.2) t → e ∈ es ∨ e ∈ t by
    rcases hfold [] h with h | h
    · exact h
    · cases h
  clear h
  induction es with
  | nil => exact fun t h => .inr h
  | cons first es ih =>
      intro t h
      rcases ih _ h with h | h
      · exact .inl (List.mem_cons_of_mem first h)
      · rcases mem_put h with h | h
        · exact .inl (by rw [h]; exact List.mem_cons_self)
        · exact .inr h

/-! ## Different keys -/

/-- A new key is written at the end. -/
theorem put_of_not_mem {t : Table κ α} {k : κ} (h : k ∉ t.keys) (v : α) :
    t.put k v = t ++ [(k, v)] := by
  induction t with
  | nil => rfl
  | cons e t ih =>
      simp only [keys, List.map_cons, List.mem_cons, not_or] at h
      simp [put, Ne.symm h.1, ih h.2]

/-- Writes of different keys are kept as they come. -/
theorem ofEntries_of_nodup {es : List (κ × α)} (h : (es.map Prod.fst).Nodup) :
    ofEntries es = es := by
  suffices hfold : ∀ t : Table κ α, (t.keys ++ es.map Prod.fst).Nodup →
      es.foldl (fun t e => t.put e.1 e.2) t = t ++ es from hfold [] h
  clear h
  induction es with
  | nil => simp
  | cons e es ih =>
      intro t ht
      have hnew : e.1 ∉ t.keys := by
        intro hmem
        exact (List.nodup_append.mp ht).2.2 e.1 hmem e.1 List.mem_cons_self rfl
      have hnext : (keys (t ++ [e]) ++ es.map Prod.fst).Nodup := by
        simpa [keys] using ht
      rw [List.foldl_cons, put_of_not_mem hnew, ih _ hnext]
      simp

/-! ## Reading -/

/-- What only a write brought in is what was written. -/
theorem eq_of_get?_put {t : Table κ α} {k k' : κ} {v v' : α} (hnone : t.get? k' = none)
    (h : (t.put k v).get? k' = some v') : k = k' ∧ v = v' := by
  by_cases hk : k = k'
  · subst hk
    rw [get?_put_self, Option.some.injEq] at h
    exact ⟨rfl, h⟩
  · rw [get?_put_of_ne t v hk, hnone] at h
    cases h

/-- A table that is mapped under its keys is read under them. -/
theorem get?_map {β : Type} (t : Table κ α) (g : κ → α → β) (k : κ) :
    get? (t.map fun e => (e.1, g e.1 e.2)) k = (t.get? k).map (g k) := by
  induction t with
  | nil => rfl
  | cons e t ih =>
      by_cases hk : e.1 = k
      · simp [get?, hk]
      · simp only [List.map_cons, get?, hk, if_false]
        exact ih

/-- What is read under a key stands in the table. -/
theorem mem_of_get? {t : Table κ α} {k : κ} {v : α} (h : t.get? k = some v) : (k, v) ∈ t := by
  induction t with
  | nil => simp at h
  | cons e t ih =>
      obtain ⟨k', v'⟩ := e
      by_cases hk : k' = k
      · simp only [get?, hk, if_true, Option.some.injEq] at h
        rw [hk, h]
        exact List.mem_cons_self
      · simp only [get?, hk, if_false] at h
        exact List.mem_cons_of_mem _ (ih h)

/-- In a table of different keys, what stands under a key is read there. -/
theorem get?_of_mem {t : Table κ α} (h : t.keys.Nodup) {k : κ} {v : α} (hmem : (k, v) ∈ t) :
    t.get? k = some v := by
  induction t with
  | nil => cases hmem
  | cons e t ih =>
      obtain ⟨hnew, hrest⟩ := List.nodup_cons.mp h
      rcases List.mem_cons.mp hmem with rfl | hmem
      · simp [get?]
      · have hk : e.1 ≠ k := by
          intro hk
          exact hnew (List.mem_map.mpr ⟨(k, v), hmem, hk.symm⟩)
        simp only [get?, hk, if_false]
        exact ih hrest hmem

/-! ## Lists of writes -/

/-- Entries that are put in order add their new keys behind the old ones, each once. -/
theorem keys_foldl_put (es : List (κ × α)) (t : Table κ α) :
    (es.foldl (fun t e => t.put e.1 e.2) t).keys =
      t.keys ++ ((es.map Prod.fst).removeAll t.keys).eraseDups := by
  induction es generalizing t with
  | nil => simp [List.removeAll]
  | cons e es ih =>
      rw [List.foldl_cons, ih, keys_put]
      by_cases hk : e.1 ∈ t.keys
      · simp [List.removeAll, hk]
      · have hrest : ((es.map Prod.fst).removeAll t.keys).filter (fun k => !k == e.1) =
            (es.map Prod.fst).removeAll (t.keys ++ [e.1]) := by
          rw [List.removeAll, List.removeAll, List.filter_filter]
          apply List.filter_congr
          intro k _
          by_cases hkey : k = e.1
          · simp [hkey]
          · simp [hkey]
        have hfirst : ((e :: es).map Prod.fst).removeAll t.keys =
            e.1 :: (es.map Prod.fst).removeAll t.keys := by
          simp [List.removeAll, hk]
        rw [if_neg hk, hfirst, List.eraseDups_cons, hrest, List.append_assoc]
        rfl

/-- Each key stands where it was first written. -/
theorem keys_ofEntries (es : List (κ × α)) :
    (ofEntries es).keys = (es.map Prod.fst).eraseDups := by
  have hall : (es.map Prod.fst).removeAll ([] : List κ) = es.map Prod.fst := by
    simp [List.removeAll]
  have hkeys := keys_foldl_put es ([] : Table κ α)
  rw [show keys ([] : Table κ α) = [] from rfl, hall, List.nil_append] at hkeys
  exact hkeys

/-- A table of entries has no other keys than they. -/
theorem get?_ofEntries_eq_none_iff {es : List (κ × α)} {k : κ} :
    (ofEntries es).get? k = none ↔ ∀ e ∈ es, e.1 ≠ k := by
  rw [get?_eq_none_iff, keys_ofEntries, List.mem_eraseDups, List.mem_map]
  constructor
  · intro h e he hk
    exact h ⟨e, he, hk⟩
  · rintro h ⟨e, he, hk⟩
    exact h e he hk

/-- Of the writes of a key the last is read. -/
theorem get?_ofEntries_eq_some_iff {es : List (κ × α)} {k : κ} {v : α} :
    (ofEntries es).get? k = some v ↔
      ∃ before after, es = before ++ (k, v) :: after ∧ ∀ e ∈ after, e.1 ≠ k := by
  induction es with
  | nil => simp [ofEntries]
  | cons e es ih =>
      have hcons := get?_ofEntries_cons e.1 k e.2 es
      cases hlater : (ofEntries es).get? k with
      | none =>
          rw [hcons, hlater, Option.none_or]
          have hnone := get?_ofEntries_eq_none_iff.mp hlater
          constructor
          · intro h
            split at h
            · rename_i hk
              cases h
              exact ⟨[], es, by rw [← hk]; rfl, hnone⟩
            · cases h
          · rintro ⟨before, after, heq, _⟩
            cases before with
            | nil =>
                cases heq
                rw [if_pos rfl]
            | cons f before =>
                obtain ⟨_, rfl⟩ := List.cons.inj heq
                exact absurd rfl (hnone (k, v) (by simp))
      | some w =>
          rw [hcons, hlater, Option.some_or, ← hlater, ih]
          constructor
          · rintro ⟨before, after, rfl, hafter⟩
            exact ⟨e :: before, after, rfl, hafter⟩
          · rintro ⟨before, after, heq, hafter⟩
            cases before with
            | nil =>
                obtain ⟨_, rfl⟩ := List.cons.inj heq
                rw [get?_ofEntries_eq_none_iff.mpr hafter] at hlater
                cases hlater
            | cons f before =>
                obtain ⟨_, rfl⟩ := List.cons.inj heq
                exact ⟨before, after, rfl, hafter⟩

/-- Under each key stands what was written last, and nothing else stands in the
table. -/
theorem mem_ofEntries_iff {es : List (κ × α)} {k : κ} {v : α} :
    (k, v) ∈ ofEntries es ↔
      ∃ before after, es = before ++ (k, v) :: after ∧ ∀ e ∈ after, e.1 ≠ k := by
  rw [← get?_ofEntries_eq_some_iff]
  exact ⟨get?_of_mem (nodup_keys_ofEntries es), mem_of_get?⟩

/-- Values that are written under keys of their own: under each key stands the last
of them. -/
theorem mem_ofEntries_map_iff {key : α → κ} {vs : List α} {k : κ} {v : α} :
    (k, v) ∈ ofEntries (vs.map fun v => (key v, v)) ↔
      key v = k ∧ ∃ before after, vs = before ++ v :: after ∧ ∀ w ∈ after, key w ≠ k := by
  rw [mem_ofEntries_iff]
  constructor
  · rintro ⟨before, after, heq, hafter⟩
    obtain ⟨before', rest, rfl, rfl, hrest⟩ := List.map_eq_append_iff.mp heq
    obtain ⟨v', after', rfl, hv, rfl⟩ := List.map_eq_cons_iff.mp hrest
    cases hv
    refine ⟨rfl, before', after', rfl, fun w hw => ?_⟩
    exact hafter (key w, w) (List.mem_map.mpr ⟨w, hw, rfl⟩)
  · rintro ⟨rfl, before, after, rfl, hafter⟩
    refine ⟨before.map fun v => (key v, v), after.map fun v => (key v, v), by simp, ?_⟩
    rintro e he
    obtain ⟨w, hw, rfl⟩ := List.mem_map.mp he
    exact hafter w hw

/-! ## Joined and shortened tables -/

/-- The first of two joined tables is read first. -/
theorem get?_append (t u : Table κ α) (k : κ) : get? (t ++ u) k = (t.get? k).or (u.get? k) := by
  induction t with
  | nil => rfl
  | cons e t ih =>
      by_cases hk : e.1 = k
      · simp [get?, hk]
      · simp only [List.cons_append, get?, hk, if_false]
        exact ih

/-- What a table holds, every table that continues it holds. -/
theorem get?_of_prefix {t t' : Table κ α} {k : κ} {v : α} (h : t <+: t')
    (hv : t.get? k = some v) : t'.get? k = some v := by
  obtain ⟨u, rfl⟩ := h
  rw [get?_append, hv]
  rfl

/-- A table that continues another agrees with it on its keys. -/
theorem get?_eq_of_prefix {t t' : Table κ α} {k : κ} (h : t <+: t') (hk : k ∈ t.keys) :
    t'.get? k = t.get? k := by
  cases hv : t.get? k with
  | none => exact absurd hk ((get?_eq_none_iff t k).mp hv)
  | some v => exact get?_of_prefix h hv

theorem get?_erase_of_ne (t : Table κ α) {k k' : κ} (h : k ≠ k') :
    (t.erase k).get? k' = t.get? k' := by
  induction t with
  | nil => rfl
  | cons e t ih =>
      simp only [erase, ne_eq, decide_not] at ih ⊢
      by_cases hk : e.1 = k
      · simp [hk, get?, h, ih]
      · simp [hk, get?, ih]

/-- A key that is not there is erased without effect. -/
theorem erase_of_get?_eq_none {t : Table κ α} {k : κ} (h : t.get? k = none) : t.erase k = t := by
  rw [get?_eq_none_iff] at h
  refine List.filter_eq_self.mpr fun e he => ?_
  have hne : e.1 ≠ k := fun hk => h (hk ▸ List.mem_map_of_mem he)
  simpa using hne

/-- Of a shortened table nothing is read that the table does not hold. -/
theorem get?_of_get?_erase {t : Table κ α} {k k' : κ} {v : α}
    (h : (t.erase k).get? k' = some v) : t.get? k' = some v := by
  by_cases hk : k = k'
  · subst hk
    simp at h
  · rwa [get?_erase_of_ne t hk] at h

end Table

end SingleFile
