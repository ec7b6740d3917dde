import Mathlib.Logic.Relation
import SingleFile.Proofs.Table

/-!
# Managers with any factories

A manager keeps services in the order in which they came in, and makes a service that is
missing by its factory, after the services that the factory depends on.  Here keys,
services and factories are left open: a factory names what it depends on, is handed
those services and nothing else, and may fail.  What a factory depends on ranks below
what it makes, which is what keeps the dependencies from running in a circle.

Main results:

- Theorem `Built.exists_added`: what is built comes in behind what is there, each service
  after those that it was made from.
- Theorem `adds_ensure`: a dependency that is missing is built, after what it depends on.
- Theorem `serves_register_iff`: the factory that is registered last for a type serves it.
- Theorem `built_get`: what is asked for is built, whether or not it is given out.
- Theorem `get_of_kept`: what is kept is given out, and nothing changes.
-/

namespace SingleFile

variable {κ S E W : Type}

/-! ## Managers -/

/-- What a manager is told about its services: an order in which they can be made, what it
means that one is ready, and the words for what goes wrong and what is reported. -/
structure Conventions (κ S E W : Type) where
  rank : κ → Nat
  isReady : S → Bool
  markReady : S → S
  isReady_markReady : ∀ x, isReady (markReady x) = true
  noFactory : κ → E
  absent : κ → E
  noteCreation : κ → W → W
  noteFactory : κ → W → W

/-- Makes services of one type out of those that it depends on, which rank below. -/
structure Factory (C : Conventions κ S E W) where
  type : κ
  dependencies : List κ
  create : Table κ S → W → Except E S × W
  rank_lt : ∀ d ∈ dependencies, C.rank d < C.rank type

/-- Services and factories in the order in which they came in, each factory under the type
of its services, and everything else that a factory may see. -/
@[ext]
structure Manager (C : Conventions κ S E W) [DecidableEq κ] where
  services : Table κ S
  factories : Table κ (Factory C)
  type_eq : ∀ {k f}, factories.get? k = some f → f.type = k
  world : W

namespace Manager

variable [DecidableEq κ] {C : Conventions κ S E W}

/-- The services that are handed to a factory. -/
def handed (services : Table κ S) (ds : List κ) : Table κ S :=
  ds.filterMap fun d => (services.get? d).map (d, ·)

/-- A factory is handed a service for each key, when all of them are there. -/
theorem keys_handed {u : Table κ S} {ds : List κ} (h : ∀ d ∈ ds, d ∈ u.keys) :
    (handed u ds).keys = ds := by
  induction ds with
  | nil => rfl
  | cons d ds ih =>
      obtain ⟨hd, hds⟩ := List.forall_mem_cons.mp h
      cases hx : u.get? d with
      | none => exact absurd hd ((Table.get?_eq_none_iff u d).mp hx)
      | some x =>
          have hcons : handed u (d :: ds) = (d, x) :: handed u ds := by simp [handed, hx]
          rw [hcons, Table.keys, List.map_cons, ← Table.keys, ih hds]

/-- The services that a factory is handed are those that are kept. -/
theorem get?_handed (u : Table κ S) {ds : List κ} {d : κ} (hd : d ∈ ds) :
    (handed u ds).get? d = u.get? d := by
  suffices h : ∀ ds, (handed u ds).get? d = if d ∈ ds then u.get? d else none by
    rw [h, if_pos hd]
  clear hd
  intro ds
  induction ds with
  | nil => rfl
  | cons e ds ih =>
      by_cases he : e = d
      · subst he
        cases hx : u.get? e with
        | none => simpa [handed, hx] using ih
        | some x => simp [handed, hx, Table.get?]
      · cases hx : u.get? e with
        | none => simpa [handed, hx, Ne.symm he] using ih
        | some x => simpa [handed, hx, Table.get?, he, Ne.symm he] using ih

/-- Reports that a service is made. -/
def noteCreation (m : Manager C) (k : κ) : Manager C :=
  { m with world := C.noteCreation k m.world }

/-- Registers a factory under the type of its services. -/
def register (m : Manager C) (f : Factory C) : Manager C where
  services := m.services
  factories := m.factories.put f.type f
  type_eq := by
    intro k g hg
    by_cases hk : f.type = k
    · subst hk
      rw [Table.get?_put_self, Option.some.injEq] at hg
      rw [hg]
    · rw [Table.get?_put_of_ne _ _ hk] at hg
      exact m.type_eq hg
  world := C.noteFactory f.type m.world

/-- Makes a service by a factory and keeps it under a key, marked as ready. -/
def keep (m : Manager C) (k : κ) (f : Factory C) : Except E Unit × Manager C :=
  match f.create (handed m.services f.dependencies) m.world with
  | (.error e, world) => (.error e, { m with world })
  | (.ok x, world) => (.ok (), { m with services := m.services.put k (C.markReady x), world })

mutual

/-- Makes a dependency that is missing. -/
def ensure (m : Manager C) (d : κ) : Except E Unit × Manager C :=
  if m.services.has d then (.ok (), m)
  else
    match _hfactory : m.factories.get? d with
    | none => (.error (C.noFactory d), m.noteCreation d)
    | some f => (m.noteCreation d).build d f
termination_by (C.rank d, 2, 0)
decreasing_by
  rw [m.type_eq _hfactory]
  exact .right _ (.left _ _ (by decide))

/-- Makes a service by a factory, after what the factory depends on. -/
def build (m : Manager C) (k : κ) (f : Factory C) : Except E Unit × Manager C :=
  match m.ensureAll f f.dependencies (List.Subset.refl _) with
  | (.error e, m) => (.error e, m)
  | (.ok (), m) => m.keep k f
termination_by (C.rank f.type, 1, 0)
decreasing_by exact .right _ (.left _ _ (by decide))

/-- Makes the missing ones among some dependencies of a factory, in order. -/
def ensureAll (m : Manager C) (f : Factory C) (ds : List κ) (h : ds ⊆ f.dependencies) :
    Except E Unit × Manager C :=
  match ds with
  | [] => (.ok (), m)
  | d :: ds =>
      match m.ensure d with
      | (.error e, m) => (.error e, m)
      | (.ok (), m) => m.ensureAll f ds (List.subset_of_cons_subset h)
termination_by (C.rank f.type, 0, ds.length)
decreasing_by
  · exact .left _ _ (f.rank_lt d (h List.mem_cons_self))
  · exact .right _ (.right _ (Nat.lt_succ_self _))

end

/-- Makes the service of a type, by its factory, or else by the fallback. -/
def create (m : Manager C) (t : κ) (fallback : Option (Factory C)) :
    Except E Unit × Manager C :=
  let m := m.noteCreation t
  match m.factories.get? t with
  | some f => m.build t f
  | none =>
      match fallback with
      | some f => (m.register f).build t f
      | none => (.error (C.noFactory t), m)

/-- The service that is kept under a type. -/
def lookup (m : Manager C) (t : κ) : Except E S :=
  match m.services.get? t with
  | some x => .ok x
  | none => .error (C.absent t)

/-- The service of a type, made when it is missing. -/
def get (m : Manager C) (t : κ) (fallback : Option (Factory C)) : Except E S × Manager C :=
  if m.services.has t then (m.lookup t, m)
  else
    match m.create t fallback with
    | (.error e, m) => (.error e, m)
    | (.ok (), m) => (m.lookup t, m)

/-! ## Building -/

/-- The key is served by a factory that depends on the other key. -/
def DependsOn (R : κ → Factory C → Prop) (k d : κ) : Prop :=
  ∃ f, R k f ∧ d ∈ f.dependencies

/-- The key itself, or what it depends on, directly or through other keys. -/
def Needs (R : κ → Factory C → Prop) : κ → κ → Prop :=
  Relation.ReflTransGen (DependsOn R)

/-- Some of the keys, or what they depend on. -/
def NeededBy (R : κ → Factory C → Prop) (ds : List κ) (k : κ) : Prop :=
  ∃ d ∈ ds, Needs R d k

/-- Services come in behind those of a table, one after the other: each takes a free place,
is made by a factory that serves its key from exactly the services that are kept under the
dependencies of the factory, and is marked as ready. -/
inductive Built (R : κ → Factory C → Prop) (p : κ → Prop) (t : Table κ S) : Table κ S → Prop
  | start : Built R p t t
  | keep {u : Table κ S} {k : κ} {f : Factory C} {x : S} {w w' : W} (h : Built R p t u)
      (hp : p k) (hfree : k ∉ u.keys) (hf : R k f) (hdeps : ∀ d ∈ f.dependencies, d ∈ u.keys)
      (hcreate : f.create (handed u f.dependencies) w = (.ok x, w')) :
      Built R p t (u ++ [(k, C.markReady x)])

variable {R R' : κ → Factory C → Prop} {p p' : κ → Prop} {t u v : Table κ S}

/-- What is built up in two steps is built up. -/
theorem Built.trans (h : Built R p t u) (h' : Built R p u v) : Built R p t v := by
  induction h' with
  | start => exact h
  | keep _ hp hfree hf hdeps hcreate ih => exact .keep ih hp hfree hf hdeps hcreate

/-- What is built up of some keys and factories is built up of more of them. -/
theorem Built.mono (h : Built R p t u) (hp : ∀ k, p k → p' k)
    (hR : ∀ k f, p k → R k f → R' k f) : Built R' p' t u := by
  induction h with
  | start => exact .start
  | keep _ hk hfree hf hdeps hcreate ih =>
      exact .keep ih (hp _ hk) hfree (hR _ _ hk hf) hdeps hcreate

/-- What is there stays where it is. -/
theorem Built.isPrefix (h : Built R p t u) : t <+: u := by
  induction h with
  | start => exact List.prefix_refl t
  | keep _ _ _ _ _ _ ih => exact ih.trans (List.prefix_append _ _)

/-- Building up drops no service. -/
theorem Built.subset_keys (h : Built R p t u) {k : κ} (hk : k ∈ t.keys) : k ∈ u.keys :=
  (h.isPrefix.map Prod.fst).subset hk

/-- A key that came in was served by a factory. -/
theorem Built.mem_keys (h : Built R p t u) {k : κ} (hk : k ∈ u.keys) :
    k ∈ t.keys ∨ p k ∧ ∃ f, R k f := by
  induction h with
  | start => exact .inl hk
  | keep _ hp _ hf _ _ ih =>
      rw [Table.keys, List.map_append, List.mem_append] at hk
      rcases hk with hk | hk
      · exact ih hk
      · rw [List.map_singleton, List.mem_singleton] at hk
        subst hk
        exact .inr ⟨hp, _, hf⟩

/-- The service is ready, and was made by a factory that serves its key.  All that the
factory depends on was there before, and it was handed exactly what a table keeps of it. -/
def IsMade (R : κ → Factory C → Prop) (before u : Table κ S) (k : κ) (y : S) : Prop :=
  C.isReady y = true ∧ ∃ f, R k f ∧ (∀ d ∈ f.dependencies, d ∈ before.keys) ∧
    ∃ given w x w', given.keys = f.dependencies ∧
      (∀ d ∈ f.dependencies, given.get? d = u.get? d) ∧
      f.create given w = (.ok x, w') ∧ y = C.markReady x

/-- What was made of services that are there still, was made of those that are there now. -/
theorem IsMade.of_isPrefix {k : κ} {y : S} (h : IsMade R t u k y) (ht : t <+: u) (hu : u <+: v) :
    IsMade R t v k y := by
  obtain ⟨hready, f, hf, hdeps, given, w, x, w', hkeys, hgiven, hmade⟩ := h
  refine ⟨hready, f, hf, hdeps, given, w, x, w', hkeys, fun d hd => ?_, hmade⟩
  have hthere : d ∈ u.keys := (ht.map Prod.fst).subset (hdeps d hd)
  rw [hgiven d hd, Table.get?_eq_of_prefix hu hthere]

/-- The service that came in last was made of what was there. -/
theorem isMade_of_create {k : κ} {f : Factory C} {x : S} {w w' : W} (hf : R k f)
    (hdeps : ∀ d ∈ f.dependencies, d ∈ u.keys)
    (hcreate : f.create (handed u f.dependencies) w = (.ok x, w')) :
    IsMade R u u k (C.markReady x) :=
  ⟨C.isReady_markReady x, f, hf, hdeps, _, w, x, w', keys_handed hdeps,
    fun _ hd => get?_handed u hd, hcreate, rfl⟩

/-- What is built comes in behind what is there, under new keys, each service after those
that it was made from. -/
theorem Built.exists_added (h : Built R p t u) :
    ∃ added : Table κ S, u = t ++ added ∧ added.keys.Nodup ∧
      (∀ k ∈ added.keys, k ∉ t.keys ∧ p k) ∧
      ∀ before k y behind, added = before ++ (k, y) :: behind →
        IsMade R (t ++ before) u k y := by
  induction h with
  | start =>
      refine ⟨[], (List.append_nil t).symm, List.nodup_nil, nofun, ?_⟩
      intro before k y behind hsplit
      simp at hsplit
  | @keep u k f x w w' hu hp hfree hf hdeps hcreate ih =>
      obtain ⟨added, rfl, hnodup, hnew, hmade⟩ := ih
      have hfree' : k ∉ t.keys ∧ k ∉ added.keys := by
        rw [Table.keys, List.map_append, List.mem_append, not_or] at hfree
        exact hfree
      have hkeys : (added ++ [(k, C.markReady x)]).keys = added.keys ++ [k] := List.map_append
      have hgrown : t ++ added <+: t ++ added ++ [(k, C.markReady x)] := List.prefix_append _ _
      refine ⟨added ++ [(k, C.markReady x)], List.append_assoc .., ?_, ?_, ?_⟩
      · rw [hkeys, List.nodup_append]
        refine ⟨hnodup, List.pairwise_singleton _ k, ?_⟩
        rintro j hj _ hk rfl
        exact hfree'.2 (List.mem_singleton.mp hk ▸ hj)
      · intro j hj
        rw [hkeys, List.mem_append, List.mem_singleton] at hj
        rcases hj with hj | rfl
        · exact hnew j hj
        · exact ⟨hfree'.1, hp⟩
      · intro before j y behind hsplit
        rcases behind.eq_nil_or_concat with rfl | ⟨behind, e, rfl⟩
        · obtain ⟨rfl, hlast⟩ := List.append_inj' hsplit rfl
          cases hlast
          exact (isMade_of_create hf hdeps hcreate).of_isPrefix (List.prefix_refl _) hgrown
        · have hsplit' : added ++ [(k, C.markReady x)] = (before ++ (j, y) :: behind) ++ [e] := by
            simpa using hsplit
          obtain ⟨hadded, _⟩ := List.append_inj' hsplit' rfl
          have hbefore : t ++ before <+: t ++ added := by
            rw [hadded, ← List.append_assoc]
            exact List.prefix_append _ _
          exact (hmade before j y behind hadded).of_isPrefix hbefore hgrown

/-! ## What asking for services adds -/

/-- The key is served by a factory that is registered. -/
def Serves (m : Manager C) (k : κ) (f : Factory C) : Prop :=
  m.factories.get? k = some f

/-- What a key needs among the registered factories does not rank above it. -/
theorem rank_le_of_needs {m : Manager C} {k d : κ} (h : Needs m.Serves k d) :
    C.rank d ≤ C.rank k := by
  induction h with
  | refl => exact Nat.le_refl _
  | tail _ hd ih =>
      obtain ⟨f, hf, hmem⟩ := hd
      have hlt := f.rank_lt _ hmem
      rw [m.type_eq hf] at hlt
      exact Nat.le_trans (Nat.le_of_lt hlt) ih

/-- A step of a manager builds services behind those of a table and leaves the factories as
they are; where it succeeds, services are kept under certain keys. -/
structure Adds (services : Table κ S) (factories : Table κ (Factory C))
    (R : κ → Factory C → Prop) (p : κ → Prop) (ks : List κ)
    (r : Except E Unit × Manager C) : Prop where
  built : Built R p services r.2.services
  factories_eq : r.2.factories = factories
  mem_keys : r.1 = .ok () → ∀ k ∈ ks, k ∈ r.2.services.keys

/-- A service is kept in a free place when all that its factory depends on is there. -/
theorem adds_keep {m : Manager C} {k : κ} {f : Factory C} (hp : p k) (hf : R k f)
    (hfree : k ∉ m.services.keys) (hdeps : ∀ d ∈ f.dependencies, d ∈ m.services.keys) :
    Adds m.services m.factories R p [k] (m.keep k f) := by
  unfold keep
  cases hcreate : f.create (handed m.services f.dependencies) m.world with
  | mk outcome w =>
      cases outcome with
      | error e => exact ⟨.start, rfl, nofun⟩
      | ok x =>
          refine ⟨?_, rfl, fun _ => ?_⟩
          · simp only
            rw [Table.put_of_not_mem hfree]
            exact .keep .start hp hfree hf hdeps hcreate
          · intro k' hk'
            rw [List.mem_singleton.mp hk']
            simp [Table.keys_put, hfree]

/-- Keys below a rank that are served by registered factories are needed alike. -/
theorem needs_of_needs {m : Manager C} {k d : κ}
    (hR : ∀ j g, C.rank j ≤ C.rank k → m.Serves j g → R j g) (h : Needs m.Serves k d) :
    Needs R k d := by
  induction h with
  | refl => exact .refl
  | tail hb hd ih =>
      obtain ⟨f, hf, hmem⟩ := hd
      exact ih.tail ⟨f, hR _ _ (rank_le_of_needs hb) hf, hmem⟩

/-- A service is built for a free place, by the factory that is registered for the place
or, when there is none, by another. -/
theorem adds_build {m : Manager C} {k : κ} {f : Factory C} (hfree : k ∉ m.services.keys)
    (htype : ∀ g, m.Serves k g → f.type = k) (hf : R k f)
    (hR : ∀ j g, C.rank j < C.rank f.type → m.Serves j g → R j g)
    (hall : Adds m.services m.factories m.Serves (NeededBy m.Serves f.dependencies)
      f.dependencies
      (m.ensureAll f f.dependencies (List.Subset.refl _))) :
    Adds m.services m.factories R (Needs R k) [k] (m.build k f) := by
  -- what is built on the way ranks below the service itself
  have hrank : ∀ j, NeededBy m.Serves f.dependencies j → C.rank j < C.rank f.type := by
    rintro j ⟨d, hd, hneeds⟩
    exact Nat.lt_of_le_of_lt (rank_le_of_needs hneeds) (f.rank_lt d hd)
  have hneeds : ∀ j, NeededBy m.Serves f.dependencies j → Needs R k j := by
    rintro j ⟨d, hd, hneeds⟩
    have hbelow := f.rank_lt d hd
    refine .head ⟨f, hf, hd⟩ (needs_of_needs (fun i g hi => hR i g ?_) hneeds)
    exact Nat.lt_of_le_of_lt hi hbelow
  have hbuilt := hall.built.mono hneeds fun j g hj => hR j g (hrank j hj)
  unfold build
  cases hr : m.ensureAll f f.dependencies (List.Subset.refl _) with
  | mk outcome m₁ =>
      rw [hr] at hall hbuilt
      cases outcome with
      | error e => exact ⟨hbuilt, hall.factories_eq, nofun⟩
      | ok _ =>
          have hstill : k ∉ m₁.services.keys := by
            intro hk
            rcases hall.built.mem_keys hk with hk | ⟨hneeded, g, hg⟩
            · exact hfree hk
            · have hlt := hrank k hneeded
              rw [htype g hg] at hlt
              exact Nat.lt_irrefl _ hlt
          have hkeep := adds_keep (p := Needs R k) .refl hf hstill (hall.mem_keys rfl)
          exact ⟨hbuilt.trans hkeep.built, hkeep.factories_eq.trans hall.factories_eq,
            hkeep.mem_keys⟩

-- by induction on the rank of what is made, along the recursion of both functions
mutual

/-- A dependency that is missing is built by registered factories. -/
theorem adds_ensure (m : Manager C) (d : κ) :
    Adds m.services m.factories m.Serves (Needs m.Serves d) [d] (m.ensure d) := by
  rw [ensure]
  split
  · rename_i hhas
    refine ⟨.start, rfl, fun _ k hk => ?_⟩
    rw [List.mem_singleton.mp hk]
    exact (Table.has_iff _ _).mp hhas
  · rename_i hhas
    split
    · exact ⟨.start, rfl, nofun⟩
    · rename_i f hf
      have hfree : d ∉ m.services.keys := fun hd => hhas ((Table.has_iff _ _).mpr hd)
      have htype := m.type_eq hf
      exact adds_build (m := m.noteCreation d) hfree (fun _ _ => htype) hf (fun _ _ _ hg => hg)
        (adds_ensureAll (m.noteCreation d) f f.dependencies (List.Subset.refl _))
termination_by (C.rank d, 1, 0)
decreasing_by
  rw [htype]
  exact .right _ (.left _ _ (by decide))

/-- Making all dependencies of a factory adds them and what they need. -/
theorem adds_ensureAll (m : Manager C) (f : Factory C) (ds : List κ)
    (h : ds ⊆ f.dependencies) :
    Adds m.services m.factories m.Serves (NeededBy m.Serves ds) ds (m.ensureAll f ds h) := by
  match ds with
  | [] =>
      rw [ensureAll]
      exact ⟨.start, rfl, fun _ => nofun⟩
  | d :: ds =>
      have hd := adds_ensure m d
      have hfirst : ∀ k, Needs m.Serves d k → NeededBy m.Serves (d :: ds) k :=
        fun k hk => ⟨d, List.mem_cons_self, hk⟩
      have hlater : ∀ k, NeededBy m.Serves ds k → NeededBy m.Serves (d :: ds) k :=
        fun k ⟨j, hj, hk⟩ => ⟨j, List.mem_cons_of_mem d hj, hk⟩
      rw [ensureAll]
      cases hr : m.ensure d with
      | mk outcome m₁ =>
          rw [hr] at hd
          have hbuilt := hd.built.mono hfirst fun _ _ _ hg => hg
          cases outcome with
          | error e => exact ⟨hbuilt, hd.factories_eq, nofun⟩
          | ok _ =>
              have hds := adds_ensureAll m₁ f ds (List.subset_of_cons_subset h)
              have hserves : m₁.Serves = m.Serves := by
                unfold Serves
                rw [hd.factories_eq]
              rw [hserves] at hds
              refine ⟨hbuilt.trans (hds.built.mono hlater fun _ _ _ hg => hg),
                hds.factories_eq.trans hd.factories_eq, fun hok k hk => ?_⟩
              rcases List.mem_cons.mp hk with rfl | hk
              · exact hds.built.subset_keys (hd.mem_keys rfl k List.mem_cons_self)
              · exact hds.mem_keys hok k hk
termination_by (C.rank f.type, 0, ds.length)
decreasing_by
  · exact .left _ _ (f.rank_lt d (h List.mem_cons_self))
  · exact .right _ (.right _ (Nat.lt_succ_self _))

end

/-! ## Asking for services -/

/-- The key is served by a registered factory, or else, being asked for, by the fallback. -/
def MayServe (m : Manager C) (t : κ) (fallback : Option (Factory C)) (k : κ) (f : Factory C) :
    Prop :=
  m.Serves k f ∨ k = t ∧ m.factories.get? t = none ∧ fallback = some f

/-- Of the factories for one type the one that is registered last serves it; those for other
types stay. -/
theorem serves_register_iff {m : Manager C} {f g : Factory C} {k : κ} :
    (m.register f).Serves k g ↔ k = f.type ∧ g = f ∨ k ≠ f.type ∧ m.Serves k g := by
  unfold Serves register
  by_cases hk : k = f.type
  · subst hk
    simp [eq_comm]
  · simp [hk, Table.get?_put_of_ne _ _ (Ne.symm hk)]

/-- Creating a service builds up what it needs and the service itself. -/
theorem built_create {m : Manager C} {t : κ} (hfree : t ∉ m.services.keys)
    (fallback : Option (Factory C)) :
    Built (m.MayServe t fallback) (Needs (m.MayServe t fallback) t) m.services
      (m.create t fallback).2.services := by
  cases hf : (m.noteCreation t).factories.get? t with
  | some f =>
      have hcreate : m.create t fallback = (m.noteCreation t).build t f := by simp [create, hf]
      have hserves : m.MayServe t fallback t f := .inl hf
      have htype : f.type = t := m.type_eq hf
      rw [hcreate]
      exact (adds_build (m := m.noteCreation t) hfree (fun _ _ => htype) hserves
        (fun _ _ _ hg => Or.inl hg) (adds_ensureAll ..)).built
  | none =>
      cases fallback with
      | none =>
          have hcreate : m.create t none = (.error (C.noFactory t), m.noteCreation t) := by
            simp [create, hf]
          rw [hcreate]
          exact .start
      | some f =>
          have hcreate : m.create t (some f) = ((m.noteCreation t).register f).build t f := by
            simp [create, hf]
          have hserves : m.MayServe t (some f) t f := .inr ⟨rfl, hf, rfl⟩
          have hother : ∀ j g, j ≠ f.type → ((m.noteCreation t).register f).Serves j g →
              m.Serves j g := by
            intro j g hj hg
            rcases serves_register_iff.mp hg with ⟨hself, _⟩ | ⟨_, hg⟩
            · exact absurd hself hj
            · exact hg
          rw [hcreate]
          refine (adds_build (m := (m.noteCreation t).register f) hfree ?_ hserves ?_
            (adds_ensureAll ..)).built
          · intro g hg
            rcases serves_register_iff.mp hg with ⟨ht, _⟩ | ⟨_, hregistered⟩
            · exact ht.symm
            · cases hregistered.symm.trans hf
          · intro j g hlt hg
            refine Or.inl (hother j g ?_ hg)
            rintro rfl
            exact Nat.lt_irrefl _ hlt

/-- To ask for a service builds what is missing behind what is there, whether or not it is
given out. -/
theorem built_get (m : Manager C) (t : κ) (fallback : Option (Factory C)) :
    Built (m.MayServe t fallback) (Needs (m.MayServe t fallback) t) m.services
      (m.get t fallback).2.services := by
  unfold get
  split
  · exact .start
  · rename_i hhas
    have hfree : t ∉ m.services.keys := fun ht => hhas ((Table.has_iff _ _).mpr ht)
    have hcreate := built_create hfree fallback
    split <;> rename_i hr <;> rw [hr] at hcreate <;> exact hcreate

/-- A service that is found is kept under its type. -/
theorem lookup_eq_ok {m : Manager C} {t : κ} {x : S} (h : m.lookup t = .ok x) :
    m.services.get? t = some x := by
  unfold lookup at h
  split at h
  · rename_i hx
    cases h
    exact hx
  · cases h

/-- A service that is given out is kept. -/
theorem get_eq_ok {m m' : Manager C} {t : κ} {fallback : Option (Factory C)} {x : S}
    (h : m.get t fallback = (.ok x, m')) : m'.services.get? t = some x := by
  unfold get at h
  split at h
  · obtain ⟨hx, rfl⟩ := Prod.mk.inj h
    exact lookup_eq_ok hx
  · split at h
    · cases h
    · obtain ⟨hx, rfl⟩ := Prod.mk.inj h
      exact lookup_eq_ok hx

/-- A service that is kept is given out, and nothing changes. -/
theorem get_of_kept {m : Manager C} {t : κ} {x : S} (h : m.services.get? t = some x)
    (fallback : Option (Factory C)) : m.get t fallback = (.ok x, m) := by
  simp [get, lookup, Table.has, h]

end Manager

end SingleFile
