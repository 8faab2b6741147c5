import Plibra.Common

/-!
# Plibra.Batch — one open client message (`batch::BatchState`)

`batches.rs` drives one `batch::BatchState` per open message through `from_request`, `next`,
`is_ready_to_respond`, `into_response`, `request_by_id` and `BatchElem::set_response`.  The file
`batch.rs` is not among the sources, so the tracker is modelled from the spec (§3 and §4.1, the
CallTracker): the calls of the message in order, each tagged a notification or a request with a
one-shot result slot, and a cursor past the calls already handed out.  A request is addressed by
its index among the calls, and only once it has been handed out ("re-resolves a previously issued
request id").  Two facts the tracker keeps are fields of `BatchState`, so no other state can be
built: the cursor never passes the end, and no call past the cursor holds a result.
-/

namespace Plibra

/-- A call of a message, tagged once and for all: a notification, or a request with its
one-shot result slot (spec §3). -/
inductive Entry where
  | notification (notification : Notification)
  | request (call : MethodCall) (result : Option (Except Error JsonValue))

namespace Entry

/-- The entry a call starts as: a request's slot is empty. -/
def ofCall : Call → Entry
  | .methodCall call => request call none
  | .notification n => notification n

/-- The result held by the entry; a notification holds none. -/
def result? : Entry → Option (Except Error JsonValue)
  | notification _ => none
  | request _ result => result

/-- A notification needs no answer; a request is settled once its slot is filled. -/
def isSettled : Entry → Bool
  | notification _ => true
  | request _ result => result.isSome

/-- The answer a settled request contributes to the response. -/
def output? : Entry → Option Output
  | notification _ => none
  | request call result => result.map (Output.ofResult · call.id)

@[simp] theorem result?_ofCall (c : Call) : (ofCall c).result? = none := by cases c <;> rfl

end Entry

/-- A handle on a request of the batch (`batch::BatchElem`): its index among the calls and the
call it reads. -/
structure BatchElem where
  index : Nat
  call : MethodCall

namespace BatchElem

/-- `BatchElem::id`: the index of the request within its batch. -/
def id (e : BatchElem) : Nat := e.index

/-- `BatchElem::request_id`: the id the client sent. -/
def requestId (e : BatchElem) : Id := e.call.id

/-- `BatchElem::method`. -/
def method (e : BatchElem) : String := e.call.method

/-- `BatchElem::params`. -/
def params (e : BatchElem) : Params := e.call.params

end BatchElem

/-- What `next` hands out (`batch::BatchInc`). -/
inductive BatchInc where
  | notification (notification : Notification)
  | request (elem : BatchElem)

/-- The handout of the entry at `index`. -/
def Entry.inc (index : Nat) : Entry → BatchInc
  | notification n => .notification n
  | request call _ => .request ⟨index, call⟩

/-- Modelled from the spec: `batch::BatchState` (the CallTracker of §3 and §4.1), missing from
the sources.  The calls of one message, a cursor past the calls handed out, and whether the
message was a JSON array. -/
structure BatchState where
  entries : List Entry
  cursor : Nat
  isBatch : Bool
  cursor_le : cursor ≤ entries.length
  pending_empty : ∀ e ∈ entries.drop cursor, e.result? = none

namespace BatchState

/-- Modelled from the spec: `BatchState::from_request`, every call still to hand out. -/
def fromRequest (request : Request) : BatchState where
  entries := request.calls.map Entry.ofCall
  cursor := 0
  isBatch := match request with
    | .single _ => false
    | .batch _ => true
  cursor_le := Nat.zero_le _
  pending_empty := by simp

/-- The batch with its cursor moved past the call under it. -/
def advance (b : BatchState) (h : b.cursor < b.entries.length) : BatchState :=
  { b with
    cursor := b.cursor + 1
    cursor_le := h
    pending_empty := fun e he =>
      b.pending_empty e (List.drop_subset_drop_left _ (Nat.le_succ _) he) }

/-- Modelled from the spec: `BatchState::next` (`advance()` of §4.1), the call under the cursor;
`none`, with the batch unchanged, once every call is out. -/
def next (b : BatchState) : Option BatchInc × BatchState :=
  if h : b.cursor < b.entries.length then (some (b.entries[b.cursor].inc b.cursor), b.advance h)
  else (none, b)

/-- Modelled from the spec: `BatchState::request_by_id`, a handle on the request at `id` if it
has been handed out and its slot is still empty. -/
def requestById (b : BatchState) (id : Nat) : Option BatchElem :=
  if id < b.cursor then
    match b.entries[id]? with
    | some (.request call none) => some ⟨id, call⟩
    | _ => none
  else none

theorem requestById_eq_some {b : BatchState} {id : Nat} {e : BatchElem} :
    b.requestById id = some e ↔
      id < b.cursor ∧ e.index = id ∧ b.entries[id]? = some (.request e.call none) := by
  unfold requestById
  split_ifs with h
  · split <;> rename_i heq
    · simp only [Option.some.injEq, h, true_and, heq]
      exact ⟨fun he => he ▸ ⟨rfl, rfl⟩, fun ⟨h1, h2⟩ => by cases e; simp_all⟩
    · simp only [reduceCtorEq, false_iff, not_and, h, true_implies]
      rintro rfl hget
      exact absurd hget (by simpa using heq _)
  · simp [h]

theorem lt_cursor_of_requestById {b : BatchState} {id : Nat} {e : BatchElem}
    (h : b.requestById id = some e) : id < b.cursor :=
  (requestById_eq_some.mp h).1

/-- Modelled from the spec: `BatchElem::set_response` on the request at `index` (`fill` of
§4.1).  When `index` addresses no request handed out with an empty slot, `fill` fails and the
batch is left as it is (§8, one-shot answer). -/
def setResponse (b : BatchState) (index : Nat) (response : Except Error JsonValue) :
    BatchState :=
  match h : b.requestById index with
  | some elem =>
    { b with
      entries := b.entries.set index (.request elem.call (some response))
      cursor_le := by simpa using b.cursor_le
      pending_empty := by
        rw [List.drop_set_of_lt _ _ (lt_cursor_of_requestById h)]
        exact b.pending_empty }
  | none => b

/-- Modelled from the spec: `BatchState::is_ready_to_respond`, every call handed out and every
request answered. -/
def isReadyToRespond (b : BatchState) : Bool :=
  b.cursor == b.entries.length && b.entries.all Entry.isSettled

/-- The response of a ready batch: the answers of its requests in the client's order, as an
array for a JSON array, and `none` when there is no request (spec §4.1, `finish`). -/
def response (b : BatchState) : Option Response :=
  let outputs := b.entries.filterMap Entry.output?
  if b.isBatch then (if outputs.isEmpty then none else some (.batch outputs))
  else outputs.head?.map .single

/-- Modelled from the spec: `BatchState::into_response`; a batch that is not ready is handed
back. -/
def intoResponse (b : BatchState) : Except BatchState (Option Response) :=
  if b.isReadyToRespond then .ok b.response else .error b

/-! ### Equations -/

@[simp] theorem fromRequest_entries (r : Request) :
    (fromRequest r).entries = r.calls.map Entry.ofCall := rfl

@[simp] theorem fromRequest_cursor (r : Request) : (fromRequest r).cursor = 0 := rfl

@[simp] theorem advance_entries (b : BatchState) (h) : (b.advance h).entries = b.entries := rfl

@[simp] theorem advance_cursor (b : BatchState) (h) : (b.advance h).cursor = b.cursor + 1 := rfl

@[simp] theorem advance_isBatch (b : BatchState) (h) : (b.advance h).isBatch = b.isBatch := rfl

theorem next_of_lt {b : BatchState} (h : b.cursor < b.entries.length) :
    b.next = (some (b.entries[b.cursor].inc b.cursor), b.advance h) := dif_pos h

theorem next_of_le {b : BatchState} (h : b.entries.length ≤ b.cursor) : b.next = (none, b) :=
  dif_neg (Nat.not_lt.mpr h)

theorem ext' {b b' : BatchState} (he : b.entries = b'.entries) (hc : b.cursor = b'.cursor)
    (hb : b.isBatch = b'.isBatch) : b = b' := by
  cases b; cases b'; simp_all

theorem intoResponse_of_ready {b : BatchState} (h : b.isReadyToRespond) :
    b.intoResponse = .ok b.response := if_pos h

theorem cursor_eq_of_ready {b : BatchState} (h : b.isReadyToRespond) :
    b.cursor = b.entries.length := by
  simp only [isReadyToRespond, Bool.and_eq_true, beq_iff_eq] at h
  exact h.1

/-- The call just handed out is a request with an empty slot, so it can be looked up. -/
theorem requestById_next {b b' : BatchState} {elem : BatchElem}
    (h : b.next = (some (.request elem), b')) : b'.requestById elem.index = some elem := by
  by_cases hlt : b.cursor < b.entries.length
  · rw [next_of_lt hlt, Prod.mk.injEq] at h
    obtain ⟨he, rfl⟩ := h
    have hget : b.entries[b.cursor]? = some b.entries[b.cursor] := List.getElem?_eq_getElem hlt
    have hnone := b.pending_empty _
      (List.mem_iff_getElem?.mpr ⟨0, by rw [List.getElem?_drop, Nat.add_zero]; exact hget⟩)
    generalize b.entries[b.cursor] = e at he hget hnone
    cases e with
    | notification n => cases he
    | request call r =>
      simp only [Entry.inc, Option.some.injEq, BatchInc.request.injEq] at he
      simp only [Entry.result?] at hnone
      subst he hnone
      exact requestById_eq_some.mpr ⟨Nat.lt_succ_self _, rfl, hget⟩
  · simp [next_of_le (Nat.not_lt.mp hlt)] at h

/-! ### Answers and handouts -/

theorem setResponse_of_some {b : BatchState} {index : Nat} {elem : BatchElem}
    (h : b.requestById index = some elem) (response : Except Error JsonValue) :
    (b.setResponse index response).entries = b.entries.set index (.request elem.call (some response)) ∧
      (b.setResponse index response).cursor = b.cursor ∧
      (b.setResponse index response).isBatch = b.isBatch := by
  unfold setResponse
  split <;> simp_all

theorem setResponse_of_none {b : BatchState} {index : Nat} (h : b.requestById index = none)
    (response : Except Error JsonValue) : b.setResponse index response = b := by
  unfold setResponse
  split <;> simp_all

@[simp] theorem setResponse_cursor (b : BatchState) (index : Nat) (response : Except Error JsonValue) :
    (b.setResponse index response).cursor = b.cursor := by
  cases hq : b.requestById index
  · rw [setResponse_of_none hq]
  · exact (setResponse_of_some hq response).2.1

@[simp] theorem setResponse_isBatch (b : BatchState) (index : Nat) (response : Except Error JsonValue) :
    (b.setResponse index response).isBatch = b.isBatch := by
  cases hq : b.requestById index
  · rw [setResponse_of_none hq]
  · exact (setResponse_of_some hq response).2.2

@[simp] theorem length_setResponse (b : BatchState) (index : Nat) (response : Except Error JsonValue) :
    (b.setResponse index response).entries.length = b.entries.length := by
  cases hq : b.requestById index
  · rw [setResponse_of_none hq]
  · rw [(setResponse_of_some hq response).1, List.length_set]

/-- An answer takes its request out of reach and leaves the others as they were. -/
theorem requestById_setResponse (b : BatchState) (index j : Nat) (response : Except Error JsonValue) :
    (b.setResponse index response).requestById j = if j = index then none else b.requestById j := by
  cases hq : b.requestById index with
  | none =>
    rw [setResponse_of_none hq]
    split_ifs with hj
    · rw [hj, hq]
    · rfl
  | some elem =>
    obtain ⟨he, hc, -⟩ := setResponse_of_some hq response
    by_cases hj : j = index
    · subst hj
      rw [if_pos rfl]
      rcases h : (b.setResponse j response).requestById j with _ | e
      · rfl
      · have := (requestById_eq_some.mp h).2.2
        simp [he, List.getElem?_set] at this
    · rw [if_neg hj]
      refine Option.ext fun e => ?_
      show _ = some e ↔ _ = some e
      rw [requestById_eq_some, requestById_eq_some, he, hc, List.getElem?_set_ne (Ne.symm hj)]

/-- Answers to two different requests commute. -/
theorem setResponse_comm (b : BatchState) {i j : Nat} (hij : i ≠ j)
    (r r' : Except Error JsonValue) :
    (b.setResponse i r).setResponse j r' = (b.setResponse j r').setResponse i r := by
  have hi' : (b.setResponse j r').requestById i = b.requestById i := by
    rw [requestById_setResponse, if_neg hij]
  have hj' : (b.setResponse i r).requestById j = b.requestById j := by
    rw [requestById_setResponse, if_neg (Ne.symm hij)]
  cases hi : b.requestById i with
  | none => rw [setResponse_of_none hi, setResponse_of_none (hi'.trans hi)]
  | some ei =>
    cases hj : b.requestById j with
    | none => rw [setResponse_of_none hj, setResponse_of_none (hj'.trans hj)]
    | some ej =>
      obtain ⟨e₁, c₁, b₁⟩ := setResponse_of_some hi r
      obtain ⟨e₂, c₂, b₂⟩ := setResponse_of_some (hj'.trans hj) r'
      obtain ⟨e₃, c₃, b₃⟩ := setResponse_of_some hj r'
      obtain ⟨e₄, c₄, b₄⟩ := setResponse_of_some (hi'.trans hi) r
      refine ext' ?_ (by rw [c₂, c₁, c₄, c₃]) (by rw [b₂, b₁, b₄, b₃])
      rw [e₂, e₁, e₄, e₃, List.set_comm _ _ _ hij]

theorem requestById_advance_of_lt {b : BatchState} (h : b.cursor < b.entries.length) {j : Nat}
    (hj : j < b.cursor) : (b.advance h).requestById j = b.requestById j := by
  simp only [requestById, advance_cursor, advance_entries, if_pos hj, if_pos (Nat.lt_succ_of_lt hj)]

/-- Answers and handouts commute, for a request already handed out. -/
theorem next_setResponse {b : BatchState} {index : Nat} (hi : index < b.cursor)
    (response : Except Error JsonValue) :
    (b.setResponse index response).next =
      (b.next.1, (b.next.2).setResponse index response) := by
  cases hq : b.requestById index with
  | none =>
    rw [setResponse_of_none hq]
    by_cases hp : b.cursor < b.entries.length
    · rw [next_of_lt hp, setResponse_of_none (by rwa [requestById_advance_of_lt hp hi])]
    · rw [next_of_le (Nat.not_lt.mp hp), setResponse_of_none hq]
  | some elem =>
    obtain ⟨he, hc, hb⟩ := setResponse_of_some hq response
    by_cases hp : b.cursor < b.entries.length
    · have hp' : (b.setResponse index response).cursor <
          (b.setResponse index response).entries.length := by simpa [he, hc] using hp
      obtain ⟨he', hc', hb'⟩ := setResponse_of_some
        (by rwa [requestById_advance_of_lt hp hi] : (b.advance hp).requestById index = some elem)
        response
      rw [next_of_lt hp, next_of_lt hp']
      refine Prod.ext ?_ (ext' (by simp [he, he']) (by simp [hc, hc']) (by simp [hb, hb']))
      simp only [he, hc, List.getElem_set_ne (Nat.ne_of_lt hi)]
    · have hp' : ¬ (b.setResponse index response).cursor <
          (b.setResponse index response).entries.length := by simpa [he, hc] using hp
      rw [next_of_le (Nat.not_lt.mp hp), next_of_le (Nat.not_lt.mp hp')]

/-- A ready batch has no request left to look up. -/
theorem requestById_of_ready {b : BatchState} (h : b.isReadyToRespond) (j : Nat) :
    b.requestById j = none := by
  rcases hq : b.requestById j with _ | e
  · rfl
  · have hall := (Bool.and_eq_true _ _ ▸ h).2
    rw [List.all_eq_true] at hall
    have hmem := List.getElem?_mem (requestById_eq_some.mp hq).2.2
    simpa [Entry.isSettled] using hall _ hmem

/-- The batch with `k` more calls handed out (`next()` called `k` times). -/
def handOut (b : BatchState) : Nat → BatchState
  | 0 => b
  | k + 1 => (b.handOut k).next.2

theorem next_snd_entries (b : BatchState) : b.next.2.entries = b.entries := by
  unfold next; split_ifs <;> rfl

theorem next_snd_isBatch (b : BatchState) : b.next.2.isBatch = b.isBatch := by
  unfold next; split_ifs <;> rfl

theorem next_snd_cursor (b : BatchState) : b.next.2.cursor = min (b.cursor + 1) b.entries.length := by
  have := b.cursor_le
  unfold next
  split_ifs with h
  · simp only [advance_cursor]; omega
  · simp only; omega

@[simp] theorem handOut_entries (b : BatchState) (k : Nat) : (b.handOut k).entries = b.entries := by
  induction k with
  | zero => rfl
  | succ k ih => rw [handOut, next_snd_entries, ih]

@[simp] theorem handOut_isBatch (b : BatchState) (k : Nat) : (b.handOut k).isBatch = b.isBatch := by
  induction k with
  | zero => rfl
  | succ k ih => rw [handOut, next_snd_isBatch, ih]

theorem handOut_cursor (b : BatchState) (k : Nat) :
    (b.handOut k).cursor = min (b.cursor + k) b.entries.length := by
  induction k with
  | zero => have := b.cursor_le; show b.cursor = _; omega
  | succ k ih => rw [handOut, next_snd_cursor, ih, handOut_entries]; omega

end BatchState

end Plibra
