import Mathlib.Data.List.Dedup

/-!
# Plibra.Table — the `HashMap<u64, _>` behind `BatchesState`

The map is the list of its live entries, with unique keys as a field of the structure.  Buckets,
hasher and capacity are absent, so `shrink_to_fit` changes nothing here.  The list keeps entries
in the order they arrived: `remove` filters and `modify` rewrites in place, so neither reorders
what stays.  That order is not the map's, and where the source enumerates the keys
(`self.batches.keys()` in `next_event`) the model takes the enumeration as an argument, any
permutation of `keys`.
-/

namespace Plibra

/-- A hash map with `u64` keys: its live entries, each key once. -/
structure Table (V : Type) where
  entries : List (UInt64 × V)
  nodup : (entries.map Prod.fst).Nodup

namespace Table

variable {V W : Type}

/-- The empty map (`HashMap::with_capacity_and_hasher`). -/
def empty : Table V := ⟨[], List.nodup_nil⟩

/-- The live keys, each once. -/
def keys (m : Table V) : List UInt64 := m.entries.map Prod.fst

/-- `HashMap::get` / `get_mut`: the value stored under `k`. -/
def get? (m : Table V) (k : UInt64) : Option V := (m.entries.find? (·.1 == k)).map Prod.snd

/-- `HashMap::contains_key`, which decides `entry(k)`: occupied or vacant. -/
def contains (m : Table V) (k : UInt64) : Bool := m.keys.contains k

/-- `HashMap::remove`: the value under `k`, and the map without it. -/
def remove (m : Table V) (k : UInt64) : Option V × Table V :=
  (m.get? k, ⟨m.entries.filter (·.1 != k), (List.filter_sublist _).map _ |>.nodup m.nodup⟩)

/-- A write through `get_mut(k)`: the value under `k` replaced by `f` of it. -/
def modify (m : Table V) (k : UInt64) (f : V → V) : Table V :=
  ⟨m.entries.map (fun e => if e.1 = k then (e.1, f e.2) else e), by
    rw [List.map_map]
    convert m.nodup using 2
    funext e
    by_cases h : e.1 = k <;> simp [h]⟩

/-- `Entry::Vacant(e).insert(v)` at a key not in the map; a key in the map is overwritten. -/
def insert (m : Table V) (k : UInt64) (v : V) : Table V :=
  ⟨m.entries.filter (·.1 != k) ++ [(k, v)], by
    rw [List.map_append, List.nodup_append]
    refine ⟨(List.filter_sublist _).map _ |>.nodup m.nodup, by simp, ?_⟩
    simp only [List.map_cons, List.map_nil, List.disjoint_singleton, List.mem_map,
      List.mem_filter, bne_iff_ne, ne_eq, not_exists, not_and]
    exact fun _ h => h.2⟩

theorem keys_filterMap_sublist (l : List (UInt64 × V)) (f : V → Option W) :
    List.Sublist ((l.filterMap (fun e => (f e.2).map (e.1, ·))).map Prod.fst) (l.map Prod.fst) := by
  induction l with
  | nil => simp
  | cons e l ih => cases h : f e.2 <;> simp [List.filterMap_cons, h, ih.cons, ih.cons₂]

/-- The values kept by `f`, under their keys. -/
def filterMapVal (m : Table V) (f : V → Option W) : Table W :=
  ⟨m.entries.filterMap (fun e => (f e.2).map (e.1, ·)),
    (keys_filterMap_sublist m.entries f).nodup m.nodup⟩

/-- The entries on which `p` holds. -/
def filter (m : Table V) (p : UInt64 → V → Bool) : Table V :=
  ⟨m.entries.filter (fun e => p e.1 e.2), (List.filter_sublist _).map _ |>.nodup m.nodup⟩

theorem ext {m m' : Table V} (h : m.entries = m'.entries) : m = m' := by
  cases m; cases m'; cases h; rfl

/-! ### Lookup -/

private theorem find?_map_snd_eq_some {k : UInt64} {v : V} :
    ∀ l : List (UInt64 × V), (l.map Prod.fst).Nodup →
      ((l.find? (·.1 == k)).map Prod.snd = some v ↔ (k, v) ∈ l)
  | [], _ => by simp
  | (k', v') :: l, hl => by
    rw [List.map_cons, List.nodup_cons] at hl
    by_cases hk : k' = k
    · subst hk
      have : (k', v) ∉ l := fun h => hl.1 (List.mem_map.mpr ⟨_, h, rfl⟩)
      simp [this, eq_comm]
    · simp [hk, find?_map_snd_eq_some l hl.2, Ne.symm hk]

theorem get?_eq_some {m : Table V} {k : UInt64} {v : V} : m.get? k = some v ↔ (k, v) ∈ m.entries :=
  find?_map_snd_eq_some m.entries m.nodup

theorem mem_keys {m : Table V} {k : UInt64} : k ∈ m.keys ↔ ∃ v, m.get? k = some v := by
  simp [keys, get?_eq_some]

theorem get?_eq_none {m : Table V} {k : UInt64} : m.get? k = none ↔ k ∉ m.keys := by
  rw [mem_keys, Option.eq_none_iff_forall_not_mem]
  simp

theorem contains_iff {m : Table V} {k : UInt64} : m.contains k = true ↔ k ∈ m.keys := by
  simp [contains]

theorem get?_congr {m m' : Table V} {k : UInt64}
    (h : ∀ v, (k, v) ∈ m'.entries ↔ (k, v) ∈ m.entries) : m'.get? k = m.get? k := by
  cases hv : m.get? k with
  | none =>
    rw [Option.eq_none_iff_forall_not_mem] at hv ⊢
    exact fun v hv' => hv v (get?_eq_some.mpr ((h v).mp (get?_eq_some.mp hv')))
  | some v => exact get?_eq_some.mpr ((h v).mpr (get?_eq_some.mp hv))

@[simp] theorem get?_empty (k : UInt64) : (empty : Table V).get? k = none := rfl

@[simp] theorem keys_empty : (empty : Table V).keys = [] := rfl

/-! ### Updates -/

@[simp] theorem remove_fst (m : Table V) (k : UInt64) : (m.remove k).1 = m.get? k := rfl

theorem remove_eq_of_get? {m : Table V} {k : UInt64} {v : V} (h : m.get? k = some v) :
    m.remove k = (some v, (m.remove k).2) :=
  Prod.ext h rfl

theorem get?_remove (m : Table V) (k k' : UInt64) :
    (m.remove k).2.get? k' = if k' = k then none else m.get? k' := by
  split_ifs with h
  · subst h
    rw [get?_eq_none]
    simp [keys, remove]
  · cases hv : m.get? k' with
    | none => rw [get?_eq_none] at hv ⊢; simp_all [keys, remove]
    | some v => rw [get?_eq_some] at hv ⊢; simp [remove, hv, h]

@[simp] theorem keys_modify (m : Table V) (k : UInt64) (f : V → V) :
    (m.modify k f).keys = m.keys := by
  simp only [keys, modify, List.map_map]
  congr 1
  funext e
  by_cases h : e.1 = k <;> simp [h]

theorem get?_modify (m : Table V) (k : UInt64) (f : V → V) (k' : UInt64) :
    (m.modify k f).get? k' = if k' = k then (m.get? k).map f else m.get? k' := by
  split_ifs with h
  · subst h
    cases hv : m.get? k' with
    | none => rw [Option.map_none', get?_eq_none, keys_modify, ← get?_eq_none, hv]
    | some v =>
      rw [get?_eq_some] at hv
      exact get?_eq_some.mpr (List.mem_map.mpr ⟨_, hv, by simp⟩)
  · refine get?_congr fun v => ⟨fun hv => ?_, fun hv => List.mem_map.mpr ⟨_, hv, by simp [h]⟩⟩
    obtain ⟨e, he, hge⟩ := List.mem_map.mp hv
    by_cases hek : e.1 = k
    · simp only [hek, ite_true, Prod.mk.injEq] at hge
      exact absurd (hek ▸ hge.1) (Ne.symm h)
    · simp only [hek, ite_false] at hge
      exact hge ▸ he

theorem modify_modify (m : Table V) (k : UInt64) (f g : V → V) :
    (m.modify k f).modify k g = m.modify k (g ∘ f) := by
  apply ext
  simp only [modify, List.map_map]
  congr 1
  funext e
  by_cases h : e.1 = k <;> simp [h]

/-- Writes under two different keys commute. -/
theorem modify_comm (m : Table V) {k k' : UInt64} (hk : k ≠ k') (f g : V → V) :
    (m.modify k f).modify k' g = (m.modify k' g).modify k f := by
  apply ext
  simp only [modify, List.map_map]
  congr 1
  funext e
  by_cases h : e.1 = k
  · simp [h, hk]
  · by_cases h' : e.1 = k' <;> simp [h, h', Ne.symm hk]

theorem get?_insert (m : Table V) (k : UInt64) (v : V) (k' : UInt64) :
    (m.insert k v).get? k' = if k' = k then some v else m.get? k' := by
  split_ifs with h
  · exact get?_eq_some.mpr (by simp [insert, h])
  · exact get?_congr fun v' => by simp [insert, h]

theorem remove_snd_eq_filter (m : Table V) (k : UInt64) :
    (m.remove k).2 = m.filter fun k' _ => k' != k := rfl

theorem filter_filter (m : Table V) (p q : UInt64 → V → Bool) :
    (m.filter p).filter q = m.filter fun k v => p k v && q k v := by
  apply ext
  simp only [filter, List.filter_filter]
  congr 1
  funext e
  exact Bool.and_comm _ _

theorem filter_congr {m : Table V} {p q : UInt64 → V → Bool}
    (h : ∀ k v, m.get? k = some v → p k v = q k v) : m.filter p = m.filter q :=
  ext (List.filter_congr fun e he => h e.1 e.2 (get?_eq_some.mpr he))

theorem filter_eq_self {m : Table V} {p : UInt64 → V → Bool}
    (h : ∀ k v, m.get? k = some v → p k v = true) : m.filter p = m :=
  ext (List.filter_eq_self.mpr fun e he => h e.1 e.2 (get?_eq_some.mpr he))

theorem get?_filter (m : Table V) (p : UInt64 → V → Bool) (k : UInt64) :
    (m.filter p).get? k = (m.get? k).filter (p k) := by
  cases hv : m.get? k with
  | none =>
    rw [Option.filter_none, get?_eq_none]
    rw [get?_eq_none] at hv
    simp only [keys, filter, List.mem_map, List.mem_filter] at hv ⊢
    exact fun ⟨e, he, hk⟩ => hv ⟨e, he.1, hk⟩
  | some v =>
    rw [get?_eq_some] at hv
    by_cases hp : p k v
    · rw [Option.filter_some, if_pos hp, get?_eq_some]
      exact List.mem_filter.mpr ⟨hv, hp⟩
    · rw [Option.filter_some, if_neg hp, Option.eq_none_iff_forall_not_mem]
      intro v' hv'
      have hmem := List.mem_filter.mp (get?_eq_some.mp hv')
      have : v' = v := Option.some.inj
        ((get?_eq_some.mpr hmem.1).symm.trans (get?_eq_some.mpr hv))
      exact hp (this ▸ hmem.2)

/-- A write that leaves the value under `k` as it is leaves the map as it is. -/
theorem modify_eq_self {m : Table V} {k : UInt64} {f : V → V} {v : V} (hv : m.get? k = some v)
    (hf : f v = v) : m.modify k f = m := by
  apply ext
  refine (List.map_congr_left fun e he => ?_).trans (List.map_id _)
  by_cases hk : e.1 = k
  · have : e.2 = v := Option.some.inj ((get?_eq_some.mpr (hk ▸ he)).symm.trans hv)
    rw [if_pos hk, this, hf]
    exact Prod.ext rfl this.symm
  · rw [if_neg hk]; rfl

theorem get?_filterMapVal (m : Table V) (f : V → Option W) (k : UInt64) :
    (m.filterMapVal f).get? k = (m.get? k).bind f := by
  have hmem : ∀ w, (k, w) ∈ (m.filterMapVal f).entries ↔ ∃ v, m.get? k = some v ∧ f v = some w := by
    simp only [filterMapVal, List.mem_filterMap, Option.map_eq_some', Prod.mk.injEq,
      get?_eq_some]
    exact fun w => ⟨fun ⟨e, he, w', hw', hk, hw⟩ => ⟨e.2, hk ▸ he, hw ▸ hw'⟩,
      fun ⟨v, hv, hw⟩ => ⟨(k, v), hv, w, hw, rfl, rfl⟩⟩
  cases hb : (m.get? k).bind f with
  | none =>
    rw [Option.eq_none_iff_forall_not_mem]
    intro w hw
    obtain ⟨v, hv, hfv⟩ := (hmem w).mp (get?_eq_some.mp hw)
    simp [hv, hfv] at hb
  | some w =>
    obtain ⟨v, hv, hfv⟩ := Option.bind_eq_some.mp hb
    exact get?_eq_some.mpr ((hmem w).mpr ⟨v, hv, hfv⟩)

/-! ### Keeping values -/

theorem filterMapVal_filter (m : Table V) (p : UInt64 → V → Bool) (f : V → Option W)
    (h : ∀ k v, m.get? k = some v → p k v = false → f v = none) :
    (m.filter p).filterMapVal f = m.filterMapVal f := by
  apply ext
  simp only [filterMapVal, filter, List.filterMap_filter]
  refine List.filterMap_congr fun e he => ?_
  cases hp : p e.1 e.2
  · simp [h e.1 e.2 (get?_eq_some.mpr he) hp]
  · rfl

theorem filterMapVal_modify (m : Table V) (k : UInt64) (g : V → V) (f : V → Option W)
    (h : ∀ v, m.get? k = some v → f (g v) = f v) :
    (m.modify k g).filterMapVal f = m.filterMapVal f := by
  apply ext
  simp only [filterMapVal, modify, List.filterMap_map]
  refine List.filterMap_congr fun e he => ?_
  by_cases hk : e.1 = k
  · simp only [Function.comp, hk, ite_true, h e.2 (hk ▸ get?_eq_some.mpr he)]
  · simp [hk]

theorem filterMapVal_eq_self (m : Table V) (f : V → Option V)
    (h : ∀ k v, m.get? k = some v → f v = some v) : m.filterMapVal f = m := by
  apply ext
  simp only [filterMapVal]
  conv_rhs => rw [← List.filterMap_some m.entries]
  exact List.filterMap_congr fun e he => by simp [h e.1 e.2 (get?_eq_some.mpr he)]

/-! ### Totals -/

/-- The sum of `w` over the values. -/
def total (m : Table V) (w : V → Nat) : Nat := m.entries.foldr (fun e acc => w e.2 + acc) 0

theorem total_add_one (m : Table V) (w : V → Nat) :
    m.total (fun v => w v + 1) = m.total w + m.keys.length := by
  simp only [total, keys, List.length_map]
  induction m.entries with
  | nil => rfl
  | cons e l ih => simp only [List.foldr_cons, List.length_cons, ih]; omega

private theorem foldr_filter_le (q : UInt64 × V → Bool) (w : V → Nat) :
    ∀ l : List (UInt64 × V),
      (l.filter q).foldr (fun e acc => w e.2 + acc) 0 ≤ l.foldr (fun e acc => w e.2 + acc) 0
  | [] => le_rfl
  | e :: l => by
    have := foldr_filter_le q w l
    by_cases h : q e <;> simp [List.filter_cons, h] <;> omega

theorem total_filter_le (m : Table V) (p : UInt64 → V → Bool) (w : V → Nat) :
    (m.filter p).total w ≤ m.total w :=
  foldr_filter_le _ _ m.entries

private theorem foldr_modify (k : UInt64) (f : V → V) (w : V → Nat) :
    ∀ (l : List (UInt64 × V)) (v : V), (l.map Prod.fst).Nodup → (k, v) ∈ l →
      (l.map fun e => if e.1 = k then (e.1, f e.2) else e).foldr (fun e acc => w e.2 + acc) 0 +
          w v = l.foldr (fun e acc => w e.2 + acc) 0 + w (f v)
  | [], _, _, h => absurd h (List.not_mem_nil _)
  | e :: l, v, hnd, hmem => by
    rw [List.map_cons, List.nodup_cons] at hnd
    rcases List.mem_cons.mp hmem with rfl | hl
    · have hk : k ∉ l.map Prod.fst := hnd.1
      have hrest : ∀ e' ∈ l, e'.1 ≠ k := fun e' he' h => hk (h ▸ List.mem_map_of_mem Prod.fst he')
      have hl : l.map (fun e => if e.1 = k then (e.1, f e.2) else e) = l := by
        conv_rhs => rw [← List.map_id l]
        exact List.map_congr_left fun e' he' => if_neg (hrest e' he')
      simp [hl]; omega
    · have hne : e.1 ≠ k := fun h => hnd.1 (h ▸ List.mem_map_of_mem Prod.fst hl)
      have := foldr_modify k f w l v hnd.2 hl
      simp only [List.map_cons, List.foldr_cons, if_neg hne] at this ⊢
      omega

theorem total_modify {m : Table V} {k : UInt64} {v : V} (h : m.get? k = some v) (f : V → V)
    (w : V → Nat) : (m.modify k f).total w + w v = m.total w + w (f v) :=
  foldr_modify k f w m.entries v m.nodup (get?_eq_some.mp h)

private theorem foldr_remove (k : UInt64) (w : V → Nat) :
    ∀ (l : List (UInt64 × V)) (v : V), (l.map Prod.fst).Nodup → (k, v) ∈ l →
      (l.filter (·.1 != k)).foldr (fun e acc => w e.2 + acc) 0 + w v =
        l.foldr (fun e acc => w e.2 + acc) 0
  | [], _, _, h => absurd h (List.not_mem_nil _)
  | e :: l, v, hnd, hmem => by
    rw [List.map_cons, List.nodup_cons] at hnd
    rcases List.mem_cons.mp hmem with rfl | hl
    · have hk : k ∉ l.map Prod.fst := hnd.1
      have hrest : ∀ e' ∈ l, (e'.1 != k) = true := fun e' he' => by
        simpa using fun h : e'.1 = k => hk (h ▸ List.mem_map_of_mem Prod.fst he')
      rw [List.filter_cons_of_neg (by simp), List.filter_eq_self.mpr hrest]
      simp; omega
    · have hne : e.1 ≠ k := fun h => hnd.1 (h ▸ List.mem_map_of_mem Prod.fst hl)
      have := foldr_remove k w l v hnd.2 hl
      rw [List.filter_cons_of_pos (by simpa using hne)]
      simp only [List.foldr_cons] at this ⊢
      omega

theorem total_remove {m : Table V} {k : UInt64} {v : V} (h : m.get? k = some v) (w : V → Nat) :
    (m.remove k).2.total w + w v = m.total w :=
  foldr_remove k w m.entries v m.nodup (get?_eq_some.mp h)

end Table

end Plibra
