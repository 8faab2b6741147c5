import Plibra.Batches.Basic

/-!
# Plibra.Batches.NextEvent — the scan of `next_event`

`next_event` snapshots the keys of the map and visits them in the order `keys()` gives, which the
model takes as the argument `order`.  On each batch it reads `is_ready_to_respond`, calls
`next()`, and then hands out a notification or a request, or drops a ready batch (returning
`ReadyToSend` when `into_response` has a response, going on otherwise), or goes on.  The
`expect`s and `unwrap`s of the source are the `Except.error` of their messages.

`nextEventFrom_of_idle` and `nextEventFrom_of_work` say what a whole scan does: it drops the
silent batches (ready, with no response) it passes, and stops at the first batch with work.
-/

namespace Plibra

/-- What the scan can do with one batch (`WhatCanWeDo` in `next_event`). -/
inductive WhatCanWeDo where
  | nothing
  | readyToRespond
  | notification (notification : Notification)
  | request (id : Nat)

/-- The first half of a round of the scan: `is_ready_to_respond` is read, then `next()` moves the
cursor of the batch. -/
def whatCanWeDo (batch : BatchState) : WhatCanWeDo × BatchState :=
  let isReadyToRespond := batch.isReadyToRespond
  match batch.next with
  | (none, batch) => (if isReadyToRespond then .readyToRespond else .nothing, batch)
  | (some (.notification n), batch) => (.notification n, batch)
  | (some (.request inner), batch) => (.request inner.id, batch)

namespace BatchesState

variable {T : Type}

/-- The panic message of `Option::unwrap` on `None`. -/
def unwrapNone : String := "called `Option::unwrap()` on a `None` value"

/-- The loop of `next_event` over the snapshot `order` of the keys.  The event comes with the
ticket of the round that returned it, the loop variable `batch_id`. -/
def nextEventFrom : List UInt64 → BatchesState T →
    Except String (Option (UInt64 × BatchesEvent T) × BatchesState T)
  | [], s => .ok (none, s)
  | batchId :: order, s =>
    match s.batches.get? batchId with
    | none => .error "all keys are valid; qed"
    | some (batch, _) =>
      let (what, batch) := whatCanWeDo batch
      let s := { s with batches := s.batches.modify batchId fun (_, userParam) => (batch, userParam) }
      match what with
      | .nothing => nextEventFrom order s
      | .readyToRespond =>
        match s.batches.remove batchId with
        | (none, _) => .error "key was grabbed from self.batches; qed"
        | (some (batch, userParam), batches) =>
          match batch.intoResponse with
          | .error _ => .error "is_ready_to_respond returned true; qed"
          | .ok (some response) =>
            .ok (some (batchId, .readyToSend response userParam), { s with batches := batches })
          | .ok none => nextEventFrom order { s with batches := batches }
      | .notification notification =>
        match s.batches.get? batchId with
        | none => .error unwrapNone
        | some _ => .ok (some (batchId, .notification notification batchId), s)
      | .request id =>
        match s.batches.get? batchId with
        | none => .error unwrapNone
        | some (batch, _) =>
          match batch.requestById id with
          | none => .error unwrapNone
          | some inner => .ok (some (batchId, .request ⟨batchId, inner⟩), s)

/-- `BatchesState::next_event`, where `order` is the order in which `self.batches.keys()` lists
the open tickets. -/
def nextEvent (order : List UInt64) (s : BatchesState T) :
    Except String (Option (BatchesEvent T) × BatchesState T) :=
  (nextEventFrom order s).map fun (event, s) => (event.map Prod.snd, s)

end BatchesState

/-! ### One batch -/

namespace BatchState

/-- Ready, with nothing to send: the scan drops such a batch without an event. -/
def isSilent (b : BatchState) : Bool := b.isReadyToRespond && b.response.isNone

/-- A call still to hand out, or a response to send. -/
def hasWork (b : BatchState) : Bool :=
  decide (b.cursor < b.entries.length) || (b.isReadyToRespond && b.response.isSome)

end BatchState

/-- The event of a handout from the batch under `t`. -/
def BatchInc.toEvent {T : Type} (t : UInt64) : BatchInc → BatchesEvent T
  | .notification n => .notification n t
  | .request elem => .request ⟨t, elem⟩

namespace BatchesState

variable {T : Type}

/-- The event a batch with work gives: its next call, or its response. -/
def batchEvent (t : UInt64) (b : BatchState) (u : T) : Option (BatchesEvent T) :=
  match b.next.1 with
  | some inc => some (inc.toEvent t)
  | none => if b.isReadyToRespond then b.response.map (.readyToSend · u) else none

/-- The state once the batch `b` under `t` has given its event: moved past its next call, or
dropped. -/
def afterWork (t : UInt64) (b : BatchState) (s : BatchesState T) : BatchesState T :=
  if b.cursor < b.entries.length then
    { s with batches := s.batches.modify t fun (_, u) => (b.next.2, u) }
  else { s with batches := (s.batches.remove t).2 }

/-- The state with the silent batches under the tickets of `ks` dropped. -/
def dropSilentOf (ks : List UInt64) (s : BatchesState T) : BatchesState T :=
  { s with batches := s.batches.filter fun k (b, _) => !(ks.contains k && b.isSilent) }

/-- The state with every silent batch dropped. -/
def dropSilent (s : BatchesState T) : BatchesState T :=
  { s with batches := s.batches.filter fun _ (b, _) => !b.isSilent }

/-- Whether the batch under `t` has work (`false` for a vacant ticket). -/
def workAt (s : BatchesState T) (t : UInt64) : Bool :=
  match s.batches.get? t with
  | some (b, _) => b.hasWork
  | none => false

/-! ### One round -/

section Round

variable {b b' : BatchState}

theorem whatCanWeDo_of_notification {n : Notification} (h : b.next = (some (.notification n), b')) :
    whatCanWeDo b = (.notification n, b') := by
  simp only [whatCanWeDo, h]

theorem whatCanWeDo_of_request {e : BatchElem} (h : b.next = (some (.request e), b')) :
    whatCanWeDo b = (.request e.index, b') := by
  simp only [whatCanWeDo, h]; rfl

theorem whatCanWeDo_of_none (h : b.next = (none, b')) :
    whatCanWeDo b = (if b.isReadyToRespond then .readyToRespond else .nothing, b') := by
  simp only [whatCanWeDo, h]

variable {s : BatchesState T} {t : UInt64} {u : T}

/-- A round on a batch with a call to hand out returns it. -/
theorem nextEventFrom_cons_pending (order : List UInt64) (h : s.batches.get? t = some (b, u))
    (hp : b.cursor < b.entries.length) :
    nextEventFrom (t :: order) s = .ok ((batchEvent t b u).map (t, ·), afterWork t b s) := by
  obtain ⟨inc, b', hn⟩ : ∃ inc b', b.next = (some inc, b') := ⟨_, _, BatchState.next_of_lt hp⟩
  have hafter : afterWork t b s = { s with batches := s.batches.modify t fun (_, u) => (b', u) } := by
    rw [afterWork, if_pos hp, hn]
  have hget : (s.batches.modify t fun (_, u) => (b', u)).get? t = some (b', u) := by
    rw [Table.get?_modify, if_pos rfl, h]; rfl
  rw [hafter]
  cases inc with
  | notification n =>
    simp only [nextEventFrom, h, whatCanWeDo_of_notification hn, hget, batchEvent, hn]; rfl
  | request e =>
    simp only [nextEventFrom, h, whatCanWeDo_of_request hn, hget, BatchState.requestById_next hn,
      batchEvent, hn]
    rfl

/-- A round on a batch that has handed out every call: a ready batch is dropped, with its
response if it has one. -/
theorem nextEventFrom_cons_of_le (order : List UInt64) (h : s.batches.get? t = some (b, u))
    (hp : b.entries.length ≤ b.cursor) :
    nextEventFrom (t :: order) s =
      if b.isReadyToRespond then
        match b.response with
        | some r => .ok (some (t, .readyToSend r u), { s with batches := (s.batches.remove t).2 })
        | none => nextEventFrom order { s with batches := (s.batches.remove t).2 }
      else nextEventFrom order s := by
  have hs : (s.batches.modify t fun (_, u) => (b, u)) = s.batches := Table.modify_eq_self h rfl
  simp only [nextEventFrom, h, whatCanWeDo_of_none (BatchState.next_of_le hp), hs]
  split_ifs with hr
  · rw [Table.remove_eq_of_get? h]
    simp only [BatchState.intoResponse_of_ready hr]
    cases b.response <;> rfl
  · rfl

theorem dropSilentOf_singleton (h : s.batches.get? t = some (b, u)) :
    dropSilentOf [t] s = if b.isSilent then { s with batches := (s.batches.remove t).2 } else s := by
  have key : ∀ k v, s.batches.get? k = some v → ((k = t ∧ v.1.isSilent) ↔ (k = t ∧ b.isSilent)) := by
    rintro k v hk
    constructor <;> rintro ⟨rfl, hs⟩ <;> rw [h] at hk <;> cases hk <;> exact ⟨rfl, hs⟩
  split_ifs with hs
  · rw [Table.remove_snd_eq_filter, dropSilentOf]
    congr 1
    refine Table.filter_congr fun k v hk => ?_
    have := key k v hk
    by_cases hkt : k = t <;> simp_all
  · show BatchesState.mk s.nextBatchId _ = BatchesState.mk s.nextBatchId s.batches
    congr 1
    refine Table.filter_eq_self fun k v hk => ?_
    have := key k v hk
    by_cases hkt : k = t <;> simp_all

theorem not_lt_of_hasWork_false (hw : b.hasWork = false) : ¬ b.cursor < b.entries.length := by
  simp only [BatchState.hasWork, Bool.or_eq_false_iff, decide_eq_false_iff_not] at hw
  exact hw.1

/-- A round on a batch with work returns its event. -/
theorem nextEventFrom_cons_of_hasWork (order : List UInt64) (h : s.batches.get? t = some (b, u))
    (hw : b.hasWork = true) :
    nextEventFrom (t :: order) s = .ok ((batchEvent t b u).map (t, ·), afterWork t b s) := by
  by_cases hp : b.cursor < b.entries.length
  · exact nextEventFrom_cons_pending order h hp
  · have hr : b.isReadyToRespond ∧ b.response.isSome := by
      simpa [BatchState.hasWork, hp] using hw
    obtain ⟨r, hrs⟩ := Option.isSome_iff_exists.mp hr.2
    rw [nextEventFrom_cons_of_le order h (Nat.not_lt.mp hp), if_pos hr.1, hrs]
    simp [batchEvent, BatchState.next_of_le (Nat.not_lt.mp hp), hr.1, hrs, afterWork, hp]

/-- A round on a batch without work goes on, having dropped the batch if it is silent. -/
theorem nextEventFrom_cons_of_not_hasWork (order : List UInt64)
    (h : s.batches.get? t = some (b, u)) (hw : b.hasWork = false) :
    nextEventFrom (t :: order) s = nextEventFrom order (dropSilentOf [t] s) := by
  have hp := not_lt_of_hasWork_false hw
  rw [nextEventFrom_cons_of_le order h (Nat.not_lt.mp hp), dropSilentOf_singleton h]
  by_cases hr : b.isReadyToRespond
  · have hn : b.response = none := by simpa [BatchState.hasWork, hp, hr] using hw
    simp [hr, hn, BatchState.isSilent]
  · simp [hr, BatchState.isSilent]

end Round

/-! ### Whole scans -/

section Scan

variable {s : BatchesState T}

@[simp] theorem dropSilentOf_nextBatchId (ks : List UInt64) :
    (dropSilentOf ks s).nextBatchId = s.nextBatchId := rfl

theorem get?_dropSilentOf (ks : List UInt64) (k : UInt64) :
    (dropSilentOf ks s).batches.get? k =
      (s.batches.get? k).filter fun v => !(ks.contains k && v.1.isSilent) :=
  Table.get?_filter _ _ _

theorem get?_dropSilentOf_of_not_mem {ks : List UInt64} {k : UInt64} (hk : k ∉ ks) :
    (dropSilentOf ks s).batches.get? k = s.batches.get? k := by
  rw [get?_dropSilentOf]
  cases s.batches.get? k <;> simp [hk]

theorem dropSilentOf_nil : dropSilentOf [] s = s := by
  show BatchesState.mk s.nextBatchId _ = BatchesState.mk s.nextBatchId s.batches
  congr 1
  exact Table.filter_eq_self fun _ _ _ => rfl

theorem dropSilentOf_cons (k : UInt64) (ks : List UInt64) :
    dropSilentOf ks (dropSilentOf [k] s) = dropSilentOf (k :: ks) s := by
  show BatchesState.mk s.nextBatchId _ = BatchesState.mk s.nextBatchId _
  rw [dropSilentOf, Table.filter_filter]
  congr 1
  refine Table.filter_congr fun k' v _ => ?_
  simp only [List.contains_cons, List.contains_nil, Bool.or_false]
  cases k' == k <;> cases ks.contains k' <;> cases v.1.isSilent <;> rfl

theorem workAt_eq {k : UInt64} {b : BatchState} {u : T} (h : s.batches.get? k = some (b, u)) :
    s.workAt k = b.hasWork := by
  simp [workAt, h]

theorem exists_get?_of_mem_keys {k : UInt64} (h : k ∈ s.batches.keys) :
    ∃ b u, s.batches.get? k = some (b, u) := by
  obtain ⟨⟨b, u⟩, h⟩ := Table.mem_keys.mp h
  exact ⟨b, u, h⟩

theorem mem_keys_dropSilentOf {ks : List UInt64} {k : UInt64} (hk : k ∉ ks)
    (hmem : k ∈ s.batches.keys) : k ∈ (dropSilentOf ks s).batches.keys := by
  rw [Table.mem_keys, get?_dropSilentOf_of_not_mem hk]
  exact Table.mem_keys.mp hmem

/-- **A scan over batches without work** ends with no event, having dropped the silent ones. -/
theorem nextEventFrom_of_idle : ∀ (order : List UInt64) (s : BatchesState T), order.Nodup →
    (∀ k ∈ order, k ∈ s.batches.keys) → (∀ k ∈ order, s.workAt k = false) →
    nextEventFrom order s = .ok (none, dropSilentOf order s)
  | [], s, _, _, _ => by rw [dropSilentOf_nil]; rfl
  | k :: order, s, hnd, hkeys, hidle => by
    obtain ⟨b, u, hk⟩ := exists_get?_of_mem_keys (hkeys k (List.mem_cons_self _ _))
    have hnk : k ∉ order := (List.nodup_cons.mp hnd).1
    have hne : ∀ k' ∈ order, k' ≠ k := fun k' h' he => hnk (he ▸ h')
    rw [nextEventFrom_cons_of_not_hasWork order hk ((workAt_eq hk).symm.trans (hidle k (by simp))),
      nextEventFrom_of_idle order _ (List.nodup_cons.mp hnd).2
        (fun k' h' => mem_keys_dropSilentOf (by simpa using hne k' h') (hkeys k' (by simp [h'])))
        (fun k' h' => by
          rw [workAt, get?_dropSilentOf_of_not_mem (by simpa using hne k' h')]
          exact hidle k' (by simp [h'])),
      dropSilentOf_cons]

/-- **A scan that meets a batch with work** drops the silent batches before it and returns the
event of that batch. -/
theorem nextEventFrom_of_work {t : UInt64} {b : BatchState} {u : T} (rest : List UInt64) :
    ∀ (pre : List UInt64) (s : BatchesState T), (pre ++ t :: rest).Nodup →
      (∀ k ∈ pre, k ∈ s.batches.keys) → (∀ k ∈ pre, s.workAt k = false) →
      s.batches.get? t = some (b, u) → b.hasWork = true →
      nextEventFrom (pre ++ t :: rest) s =
        .ok ((batchEvent t b u).map (t, ·), afterWork t b (dropSilentOf pre s))
  | [], s, _, _, _, ht, hw => by rw [dropSilentOf_nil]; exact nextEventFrom_cons_of_hasWork rest ht hw
  | k :: pre, s, hnd, hkeys, hidle, ht, hw => by
    obtain ⟨b', u', hk⟩ := exists_get?_of_mem_keys (hkeys k (List.mem_cons_self _ _))
    have hnk : k ∉ pre ++ t :: rest := (List.nodup_cons.mp hnd).1
    have hne : ∀ k' ∈ pre ++ t :: rest, k' ∉ [k] := fun k' h' he =>
      hnk (List.mem_singleton.mp he ▸ h')
    rw [List.cons_append,
      nextEventFrom_cons_of_not_hasWork _ hk ((workAt_eq hk).symm.trans (hidle k (by simp))),
      nextEventFrom_of_work rest pre _ (List.nodup_cons.mp hnd).2
        (fun k' h' => mem_keys_dropSilentOf (hne k' (by simp [h'])) (hkeys k' (by simp [h'])))
        (fun k' h' => by
          rw [workAt, get?_dropSilentOf_of_not_mem (hne k' (by simp [h']))]
          exact hidle k' (by simp [h']))
        (by rw [get?_dropSilentOf_of_not_mem (hne t (by simp))]; exact ht) hw,
      dropSilentOf_cons]

/-- What one scan does: either no batch of `order` has work, or it stops at the first that has. -/
theorem nextEventFrom_cases (order : List UInt64) (s : BatchesState T) (hnd : order.Nodup)
    (hkeys : ∀ k ∈ order, k ∈ s.batches.keys) :
    ((∀ k ∈ order, s.workAt k = false) ∧ nextEventFrom order s = .ok (none, dropSilentOf order s)) ∨
    ∃ pre t rest b u, order = pre ++ t :: rest ∧ t ∉ pre ∧ (∀ k ∈ pre, s.workAt k = false) ∧
      s.batches.get? t = some (b, u) ∧ b.hasWork = true ∧
      nextEventFrom order s =
        .ok ((batchEvent t b u).map (t, ·), afterWork t b (dropSilentOf pre s)) := by
  have hsplit := List.takeWhile_append_dropWhile (fun k => !s.workAt k) order
  have hpre : ∀ k ∈ order.takeWhile (fun k => !s.workAt k), s.workAt k = false := fun k hk => by
    simpa using List.mem_takeWhile_imp hk
  cases hd : order.dropWhile (fun k => !s.workAt k) with
  | nil =>
    have hidle : ∀ k ∈ order, s.workAt k = false := fun k hk => by
      simpa using List.dropWhile_eq_nil_iff.mp hd k hk
    exact .inl ⟨hidle, nextEventFrom_of_idle order s hnd hkeys hidle⟩
  | cons t rest =>
    have htw : s.workAt t = true := by
      have := List.head_dropWhile_not (fun k => !s.workAt k) order (by simp [hd])
      simpa [hd] using this
    rw [hd] at hsplit
    generalize order.takeWhile (fun k => !s.workAt k) = pre at hsplit hpre
    subst hsplit
    have ht : t ∈ pre ++ t :: rest := List.mem_append_right _ (List.mem_cons_self _ _)
    obtain ⟨b, u, hb⟩ := exists_get?_of_mem_keys (hkeys t ht)
    have htpre : t ∉ pre := fun htp => by
      simpa using (List.nodup_append.mp hnd).2.2 htp (List.mem_cons_self t rest)
    have hw : b.hasWork = true := (workAt_eq hb).symm.trans htw
    exact .inr ⟨pre, t, rest, b, u, rfl, htpre, hpre, hb, hw, nextEventFrom_of_work rest _ s hnd
      (fun k hk => hkeys k (List.mem_append_left _ hk)) hpre hb hw⟩

end Scan

/-! ### `next_event` from any state -/

section Spec

variable {s : BatchesState T} {t : UInt64} {b : BatchState} {u : T}

theorem next_fst_eq_none_iff : b.next.1 = none ↔ b.entries.length ≤ b.cursor := by
  by_cases hp : b.cursor < b.entries.length
  · simp [BatchState.next_of_lt hp, Nat.not_le.mpr hp]
  · simp [BatchState.next_of_le (Nat.not_lt.mp hp), Nat.not_lt.mp hp]

theorem batchEvent_eq_some {e : BatchesEvent T} :
    batchEvent t b u = some e ↔
      (∃ inc, b.next.1 = some inc ∧ e = inc.toEvent t) ∨
      (b.next.1 = none ∧ b.isReadyToRespond = true ∧ ∃ r, b.response = some r ∧
        e = .readyToSend r u) := by
  unfold batchEvent
  cases b.next.1 with
  | some inc =>
    simp only [Option.some.injEq, reduceCtorEq, false_and, or_false, exists_eq_left']
    exact eq_comm
  | none =>
    by_cases hr : b.isReadyToRespond
    · simp only [hr, ite_true, Option.map_eq_some', true_and, reduceCtorEq, false_and,
        exists_const, false_or]
      exact ⟨fun ⟨r, h1, h2⟩ => .inr ⟨r, h1, h2.symm⟩,
        fun h => by obtain ⟨_, ⟨⟩⟩ | ⟨r, h1, h2⟩ := h; exact ⟨r, h1, h2.symm⟩⟩
    · simp [hr]

theorem batchEvent_isSome : (batchEvent t b u).isSome = b.hasWork := by
  unfold batchEvent BatchState.hasWork
  by_cases hp : b.cursor < b.entries.length
  · simp [BatchState.next_of_lt hp, hp]
  · by_cases hr : b.isReadyToRespond <;>
      simp [BatchState.next_of_le (Nat.not_lt.mp hp), hp, hr]

theorem get?_afterWork_self (h : s.batches.get? t = some (b, u)) :
    (afterWork t b s).batches.get? t =
      if b.cursor < b.entries.length then some (b.next.2, u) else none := by
  unfold afterWork
  split_ifs
  · simp [Table.get?_modify, h]
  · simp [Table.get?_remove]

theorem get?_afterWork_ne {t' : UInt64} (hne : t' ≠ t) :
    (afterWork t b s).batches.get? t' = s.batches.get? t' := by
  unfold afterWork
  split_ifs <;> simp [Table.get?_modify, Table.get?_remove, hne]

/-- The batch that produced the event: its next call handed out, or its response sent and the
batch dropped. -/
theorem afterWork_self_cases {e : BatchesEvent T} (hb : s.batches.get? t = some (b, u))
    (he : batchEvent t b u = some e) :
    (∃ inc, b.next.1 = some inc ∧ e = inc.toEvent t ∧
        (afterWork t b s).batches.get? t = some (b.next.2, u)) ∨
      (b.next.1 = none ∧ b.isReadyToRespond = true ∧ ∃ r, b.response = some r ∧
        e = .readyToSend r u ∧ (afterWork t b s).batches.get? t = none) := by
  rw [get?_afterWork_self hb]
  rcases batchEvent_eq_some.mp he with ⟨inc, hinc, rfl⟩ | ⟨hnone, hr, r, hres, rfl⟩
  · have hp : b.cursor < b.entries.length :=
      Nat.not_le.mp fun hle => by simp [next_fst_eq_none_iff.mpr hle] at hinc
    exact .inl ⟨inc, hinc, rfl, if_pos hp⟩
  · exact .inr ⟨hnone, hr, r, hres, rfl, if_neg (Nat.not_lt.mpr (next_fst_eq_none_iff.mp hnone))⟩

@[simp] theorem afterWork_nextBatchId : (afterWork t b s).nextBatchId = s.nextBatchId := by
  unfold afterWork; split_ifs <;> rfl

/-- Dropping the silent batches of `pre` leaves each batch as it was, or drops a silent one. -/
theorem get?_dropSilentOf_cases (pre : List UInt64) (t' : UInt64) :
    (dropSilentOf pre s).batches.get? t' = s.batches.get? t' ∨
      ((dropSilentOf pre s).batches.get? t' = none ∧
        ∃ b' u', s.batches.get? t' = some (b', u') ∧ b'.isSilent = true) := by
  rw [get?_dropSilentOf]
  cases hv : s.batches.get? t' with
  | none => exact .inl rfl
  | some v =>
    cases hsil : pre.contains t' && v.1.isSilent
    · exact .inl (by simp only [Option.filter_some, hsil, Bool.not_false, ite_true])
    · refine .inr ⟨by simp only [Option.filter_some, hsil, Bool.not_true, Bool.false_eq_true,
        ite_false], v.1, v.2, rfl, ?_⟩
      simp only [Bool.and_eq_true] at hsil
      exact hsil.2

theorem nodup_of_perm {order : List UInt64} (horder : order.Perm s.batches.keys) : order.Nodup :=
  horder.nodup_iff.mpr s.batches.nodup

theorem dropSilentOf_of_perm {order : List UInt64} (horder : order.Perm s.batches.keys) :
    dropSilentOf order s = dropSilent s := by
  show BatchesState.mk _ _ = BatchesState.mk _ _
  congr 1
  refine Table.filter_congr fun k v hk => ?_
  have : k ∈ order := horder.mem_iff.mpr (Table.mem_keys.mpr ⟨v, hk⟩)
  simp [this]

theorem nextEvent_of_nextEventFrom {order : List UInt64} {r : Option (UInt64 × BatchesEvent T)}
    {s' : BatchesState T} (h : nextEventFrom order s = .ok (r, s')) :
    s.nextEvent order = .ok (r.map Prod.snd, s') := by
  simp only [nextEvent, h]; rfl

/-- A scan keeps the counter and opens no batch. -/
theorem nextEventFrom_frame {order : List UInt64} {r : Option (UInt64 × BatchesEvent T)}
    {s' : BatchesState T} (hnd : order.Nodup) (hkeys : ∀ k ∈ order, k ∈ s.batches.keys)
    (h : nextEventFrom order s = .ok (r, s')) :
    s'.nextBatchId = s.nextBatchId ∧ ∀ k, s.batches.get? k = none → s'.batches.get? k = none := by
  rcases nextEventFrom_cases order s hnd hkeys with ⟨_, h'⟩ | ⟨pre, t, _, b, u, _, _, _, hb, _, h'⟩ <;>
    rw [h'] at h <;> cases h
  · exact ⟨rfl, fun k hk => by rw [get?_dropSilentOf, hk]; rfl⟩
  · refine ⟨afterWork_nextBatchId, fun k hk => ?_⟩
    by_cases hkt : k = t
    · exact absurd (hkt ▸ hb) (by simp [hk])
    · rw [get?_afterWork_ne hkt, get?_dropSilentOf, hk]; rfl

/-- Every scan over the open tickets finishes without a panic. -/
theorem nextEventFrom_ok {order : List UInt64} (horder : order.Perm s.batches.keys) :
    ∃ r, nextEventFrom order s = .ok r := by
  rcases nextEventFrom_cases order s (nodup_of_perm horder) (fun k hk => horder.subset hk) with
    ⟨_, h⟩ | ⟨_, _, _, _, _, _, _, _, _, _, h⟩ <;>
  exact ⟨_, h⟩

/-- **`next_event` never panics**: from any state, for any order in which `keys()` lists the open
tickets, no `expect` or `unwrap` of the scan fails. -/
theorem nextEvent_never_panics (s : BatchesState T) (order : List UInt64)
    (horder : order.Perm s.batches.keys) : ∃ r, s.nextEvent order = .ok r := by
  obtain ⟨⟨_, _⟩, h⟩ := nextEventFrom_ok horder
  exact ⟨_, nextEvent_of_nextEventFrom h⟩

theorem nextEvent_never_panics_busy :
    [2, 1, 0].Perm busy.batches.keys ∧ ∃ r, busy.nextEvent [2, 1, 0] = .ok r :=
  have horder : [2, 1, 0].Perm busy.batches.keys := by decide
  ⟨horder, nextEvent_never_panics busy _ horder⟩

/-- **`next_event` from any state.**  It returns `None` exactly when no open batch has a call to
hand out or a response to send, and then drops exactly the silent batches.  Otherwise the event
comes from one batch with work: its next call, with the cursor moved past it, or its response
with its user parameter, the batch dropped.  The counter and every other batch are left as they
were, but for silent batches, which may be dropped. -/
theorem nextEvent_spec (s : BatchesState T) (order : List UInt64)
    (horder : order.Perm s.batches.keys) :
    ∃ res s', s.nextEvent order = .ok (res, s') ∧ s'.nextBatchId = s.nextBatchId ∧
      (res = none ↔ ∀ t b u, s.batches.get? t = some (b, u) → b.hasWork = false) ∧
      (res = none → s' = s.dropSilent) ∧
      ∀ e, res = some e → ∃ t b u, s.batches.get? t = some (b, u) ∧
        ((∃ inc, b.next.1 = some inc ∧ e = inc.toEvent t ∧
            s'.batches.get? t = some (b.next.2, u)) ∨
          (b.next.1 = none ∧ b.isReadyToRespond = true ∧ ∃ r, b.response = some r ∧
            e = .readyToSend r u ∧ s'.batches.get? t = none)) ∧
        ∀ t', t' ≠ t → s'.batches.get? t' = s.batches.get? t' ∨
          (s'.batches.get? t' = none ∧
            ∃ b' u', s.batches.get? t' = some (b', u') ∧ b'.isSilent = true) := by
  rcases nextEventFrom_cases order s (nodup_of_perm horder) (fun k hk => horder.subset hk) with
    ⟨hidle, h⟩ | ⟨pre, t, rest, b, u, rfl, htpre, hpre, hb, hw, h⟩
  · refine ⟨none, _, nextEvent_of_nextEventFrom h, rfl, ⟨fun _ t b u ht => ?_, fun _ => rfl⟩,
      fun _ => dropSilentOf_of_perm horder, fun e he => absurd he (by simp)⟩
    rw [← workAt_eq ht]
    exact hidle t (horder.mem_iff.mpr (Table.mem_keys.mpr ⟨_, ht⟩))
  · obtain ⟨e, he⟩ := Option.isSome_iff_exists.mp ((batchEvent_isSome (t := t) (u := u)).trans hw)
    have hb' : (dropSilentOf pre s).batches.get? t = some (b, u) := by
      rw [get?_dropSilentOf_of_not_mem htpre, hb]
    refine ⟨some e, afterWork t b (dropSilentOf pre s), by rw [nextEvent_of_nextEventFrom h, he]; rfl,
      afterWork_nextBatchId,
      ⟨fun h => absurd h (by simp), fun hall => absurd (hall t b u hb) (by simp [hw])⟩,
      fun h => absurd h (by simp), fun e' he' => ?_⟩
    cases he'
    refine ⟨t, b, u, hb, afterWork_self_cases hb' he, fun t' ht' => ?_⟩
    rw [get?_afterWork_ne ht']
    exact get?_dropSilentOf_cases pre t'

theorem nextEvent_spec_busy :
    [2, 1, 0].Perm busy.batches.keys ∧
    ∃ res s', busy.nextEvent [2, 1, 0] = .ok (res, s') ∧ s'.nextBatchId = busy.nextBatchId ∧
      (res = none ↔ ∀ t b u, busy.batches.get? t = some (b, u) → b.hasWork = false) ∧
      (res = none → s' = busy.dropSilent) ∧
      ∀ e, res = some e → ∃ t b u, busy.batches.get? t = some (b, u) ∧
        ((∃ inc, b.next.1 = some inc ∧ e = inc.toEvent t ∧
            s'.batches.get? t = some (b.next.2, u)) ∨
          (b.next.1 = none ∧ b.isReadyToRespond = true ∧ ∃ r, b.response = some r ∧
            e = .readyToSend r u ∧ s'.batches.get? t = none)) ∧
        ∀ t', t' ≠ t → s'.batches.get? t' = busy.batches.get? t' ∨
          (s'.batches.get? t' = none ∧
            ∃ b' u', busy.batches.get? t' = some (b', u') ∧ b'.isSilent = true) :=
  have horder : [2, 1, 0].Perm busy.batches.keys := by decide
  ⟨horder, nextEvent_spec busy _ horder⟩

end Spec

end BatchesState

end Plibra
