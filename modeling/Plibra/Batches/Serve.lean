import Plibra.Batches.Drain
import Plibra.Batches.Inject

/-!
# Plibra.Batches.Serve — the server loop over the registry

The usage notes of `BatchesState`: inject each message the server receives, then call
`next_event` in a loop and process the events.  `Serving` is the loop of a server that answers
each request as soon as it is handed out, with an `answer` of its own; `servedAt` and `leftAt` say
what the loop gets from each ticket and leaves under it.  The loop stops, and from a state where
no request waits for its answer it empties the registry, giving each batch its calls left, then
its one response.  The last section compares `inject` with the doc comment of `next_event`, which
promises an event after every `inject`: an empty batch gives none.
-/

namespace Plibra

/-- Whether the entry is a request (a method call). -/
def Entry.isRequest : Entry → Bool
  | .request _ _ => true
  | .notification _ => false

/-- Whether the event is a response (`ReadyToSend`). -/
def BatchesEvent.isReadyToSend {T : Type} : BatchesEvent T → Bool
  | .readyToSend .. => true
  | _ => false

@[simp] theorem BatchInc.isReadyToSend_toEvent {T : Type} (inc : BatchInc) (t : UInt64) :
    (inc.toEvent t : BatchesEvent T).isReadyToSend = false := by
  cases inc <;> rfl

/-! ## One batch under a server -/

namespace BatchState

variable (answer : BatchesElem → Except Error JsonValue) (t : UInt64)

/-- One round of the server on the batch under `t`: `next` hands out the call under the cursor,
and a request is answered at once with `answer` on its handle. -/
def serveOne (b : BatchState) : BatchState :=
  match b.next with
  | (some (.request elem), b') => b'.setResponse elem.index (answer ⟨t, elem⟩)
  | (_, b') => b'

/-- The batch once the server has handed out every call left and answered the requests among
them. -/
def serveAll (b : BatchState) : BatchState :=
  (serveOne answer t)^[b.entries.length - b.cursor] b

/-- Whether the batch holds a request (a method call) at all. -/
def hasRequest (b : BatchState) : Bool := (b.entries.map Entry.isRequest).or

/-- The calls of the batch as `next` hands them out, in order. -/
def incs (b : BatchState) : List BatchInc := b.entries.mapIdx fun i e => e.inc i

/-- The events under `t` of the calls the batch has still to hand out. -/
def callsLeft {T : Type} (b : BatchState) : List (BatchesEvent T) :=
  (b.incs.drop b.cursor).map (·.toEvent t)

variable {answer t} {b : BatchState}

theorem serveOne_of_le (h : b.entries.length ≤ b.cursor) : serveOne answer t b = b := by
  simp only [serveOne, next_of_le h]

theorem serveOne_of_lt (h : b.cursor < b.entries.length) :
    serveOne answer t b = match b.entries[b.cursor] with
      | .request call _ => (b.advance h).setResponse b.cursor (answer ⟨t, ⟨b.cursor, call⟩⟩)
      | .notification _ => b.advance h := by
  rw [serveOne, next_of_lt h]
  cases b.entries[b.cursor] <;> rfl

@[simp] theorem serveOne_length (b : BatchState) :
    (serveOne answer t b).entries.length = b.entries.length := by
  by_cases h : b.cursor < b.entries.length
  · rw [serveOne_of_lt h]
    split <;> simp
  · rw [serveOne_of_le (Nat.not_lt.mp h)]

theorem serveOne_cursor (h : b.cursor < b.entries.length) :
    (serveOne answer t b).cursor = b.cursor + 1 := by
  rw [serveOne_of_lt h]
  split <;> simp

/-- A round leaves the requests handed out before it as they were. -/
theorem requestById_serveOne_of_lt {j : Nat} (hj : j < b.cursor) :
    (serveOne answer t b).requestById j = b.requestById j := by
  by_cases h : b.cursor < b.entries.length
  · rw [serveOne_of_lt h]
    split
    · rw [requestById_setResponse, if_neg (Nat.ne_of_lt hj), requestById_advance_of_lt h hj]
    · exact requestById_advance_of_lt h hj
  · rw [serveOne_of_le (Nat.not_lt.mp h)]

/-- A round answers the request it hands out, so nothing from the cursor on can be looked up. -/
theorem requestById_serveOne_of_le {j : Nat} (hj : b.cursor ≤ j) :
    (serveOne answer t b).requestById j = none := by
  rcases hq : (serveOne answer t b).requestById j with _ | e
  · rfl
  have hlt := lt_cursor_of_requestById hq
  by_cases h : b.cursor < b.entries.length
  · rw [serveOne_cursor h] at hlt
    obtain rfl : j = b.cursor := by omega
    rw [serveOne_of_lt h] at hq
    split at hq <;> rename_i heq
    · rw [requestById_setResponse, if_pos rfl] at hq
      cases hq
    · have := (requestById_eq_some.mp hq).2.2
      simp [List.getElem?_eq_getElem h, heq] at this
  · rw [serveOne_of_le (Nat.not_lt.mp h)] at hlt
    omega

theorem requestById_serveOne (b : BatchState) (j : Nat) :
    (serveOne answer t b).requestById j = if j < b.cursor then b.requestById j else none := by
  split_ifs with hj
  · exact requestById_serveOne_of_lt hj
  · exact requestById_serveOne_of_le (Nat.not_lt.mp hj)

theorem serveOne_cursor_eq_min (b : BatchState) :
    (serveOne answer t b).cursor = min (b.cursor + 1) b.entries.length := by
  have := b.cursor_le
  by_cases h : b.cursor < b.entries.length
  · rw [serveOne_cursor h]; omega
  · rw [serveOne_of_le (Nat.not_lt.mp h)]; omega

/-- A round turns a request into an answered request and nothing else. -/
theorem serveOne_map_isRequest (b : BatchState) :
    (serveOne answer t b).entries.map Entry.isRequest = b.entries.map Entry.isRequest := by
  by_cases h : b.cursor < b.entries.length
  · rw [serveOne_of_lt h]
    split <;> rename_i heq
    · rcases hq : (b.advance h).requestById b.cursor with _ | elem
      · rw [setResponse_of_none hq]; rfl
      · rw [(setResponse_of_some hq _).1, advance_entries, List.map_set]
        refine List.ext_getElem (by simp) fun i h₁ _ => ?_
        rw [List.getElem_set]
        split_ifs with hi
        · subst hi; simp [heq, Entry.isRequest]
        · rfl
    · rfl
  · rw [serveOne_of_le (Nat.not_lt.mp h)]

@[simp] theorem incs_advance (h : b.cursor < b.entries.length) : (b.advance h).incs = b.incs := rfl

/-- An answer changes no call. -/
@[simp] theorem incs_setResponse (j : Nat) (r : Except Error JsonValue) :
    (b.setResponse j r).incs = b.incs := by
  rcases hq : b.requestById j with _ | elem
  · rw [setResponse_of_none hq]
  · obtain ⟨-, rfl, hentry⟩ := requestById_eq_some.mp hq
    rw [incs, (setResponse_of_some hq r).1, List.mapIdx_set, incs]
    refine List.ext_getElem? fun i => ?_
    rw [List.getElem?_set]
    split_ifs with hi hlt
    · subst hi; simp [hentry, Entry.inc]
    · exact absurd (List.getElem?_eq_some_iff.mp hentry).1 (by simpa using hlt)
    · rfl

theorem incs_serveOne (b : BatchState) : (serveOne answer t b).incs = b.incs := by
  by_cases h : b.cursor < b.entries.length
  · rw [serveOne_of_lt h]
    split <;> simp
  · rw [serveOne_of_le (Nat.not_lt.mp h)]

theorem callsLeft_of_le {T : Type} (h : b.entries.length ≤ b.cursor) :
    (b.callsLeft t : List (BatchesEvent T)) = [] := by
  simp [callsLeft, incs, h]

theorem callsLeft_of_lt {T : Type} (h : b.cursor < b.entries.length) :
    (b.callsLeft t : List (BatchesEvent T)) =
      (b.entries[b.cursor].inc b.cursor).toEvent t :: (serveOne answer t b).callsLeft t := by
  rw [callsLeft, callsLeft, incs_serveOne, serveOne_cursor h,
    List.drop_eq_getElem_cons (by simpa [incs] using h), List.map_cons]
  simp [incs]

theorem isReadyToSend_of_mem_callsLeft {T : Type} {e : BatchesEvent T} (h : e ∈ b.callsLeft t) :
    e.isReadyToSend = false := by
  obtain ⟨inc, -, rfl⟩ := List.mem_map.mp h
  exact BatchInc.isReadyToSend_toEvent inc t

/-! ### Every round left -/

theorem iterate_serveOne_cursor (n : Nat) (b : BatchState) :
    ((serveOne answer t)^[n] b).cursor = min (b.cursor + n) b.entries.length := by
  induction n generalizing b with
  | zero => have := b.cursor_le; simp only [Function.iterate_zero, id_eq]; omega
  | succ n ih =>
    rw [Function.iterate_succ_apply, ih, serveOne_length, serveOne_cursor_eq_min]
    omega

@[simp] theorem iterate_serveOne_length (n : Nat) (b : BatchState) :
    ((serveOne answer t)^[n] b).entries.length = b.entries.length := by
  induction n generalizing b with
  | zero => rfl
  | succ n ih => rw [Function.iterate_succ_apply, ih, serveOne_length]

theorem iterate_serveOne_requestById (n : Nat) (b : BatchState) (j : Nat) :
    ((serveOne answer t)^[n] b).requestById j = if j < b.cursor then b.requestById j else none := by
  induction n generalizing b with
  | zero =>
    split_ifs with hj
    · rfl
    · rcases hq : b.requestById j with _ | e
      · exact hq
      · exact absurd (lt_cursor_of_requestById hq) hj
  | succ n ih =>
    have hc : b.cursor ≤ (serveOne answer t b).cursor := by
      rw [serveOne_cursor_eq_min]; have := b.cursor_le; omega
    rw [Function.iterate_succ_apply, ih, requestById_serveOne]
    split_ifs <;> first | rfl | omega

theorem iterate_serveOne_map_isRequest (n : Nat) (b : BatchState) :
    ((serveOne answer t)^[n] b).entries.map Entry.isRequest = b.entries.map Entry.isRequest := by
  induction n generalizing b with
  | zero => rfl
  | succ n ih => rw [Function.iterate_succ_apply, ih, serveOne_map_isRequest]

theorem serveAll_of_le (h : b.entries.length ≤ b.cursor) : serveAll answer t b = b := by
  rw [serveAll, Nat.sub_eq_zero_of_le h]
  rfl

/-- One round on the way does not change where the rounds end. -/
theorem serveAll_serveOne (h : b.cursor < b.entries.length) :
    serveAll answer t (serveOne answer t b) = serveAll answer t b := by
  have hn : b.entries.length - b.cursor =
      (serveOne answer t b).entries.length - (serveOne answer t b).cursor + 1 := by
    rw [serveOne_length, serveOne_cursor h]; omega
  rw [serveAll, serveAll, hn, Function.iterate_succ_apply]

theorem serveAll_cursor (b : BatchState) : (serveAll answer t b).cursor = b.entries.length := by
  rw [serveAll, iterate_serveOne_cursor]
  have := b.cursor_le
  omega

@[simp] theorem serveAll_length (b : BatchState) :
    (serveAll answer t b).entries.length = b.entries.length :=
  iterate_serveOne_length _ b

theorem requestById_serveAll (b : BatchState) (j : Nat) :
    (serveAll answer t b).requestById j = if j < b.cursor then b.requestById j else none :=
  iterate_serveOne_requestById _ b j

theorem hasRequest_serveAll (b : BatchState) : (serveAll answer t b).hasRequest = b.hasRequest := by
  rw [hasRequest, hasRequest, serveAll, iterate_serveOne_map_isRequest]

/-! ### Ready batches -/

/-- A batch is ready once every call is out and no request can be looked up any more. -/
theorem isReadyToRespond_iff : b.isReadyToRespond ↔
    b.cursor = b.entries.length ∧ ∀ j, b.requestById j = none := by
  refine ⟨fun h => ⟨cursor_eq_of_ready h, requestById_of_ready h⟩, fun ⟨hc, hq⟩ => ?_⟩
  simp only [isReadyToRespond, hc, beq_self_eq_true, Bool.true_and, List.all_eq_true]
  intro e he
  obtain ⟨j, hj⟩ := List.mem_iff_getElem?.mp he
  have hjl : j < b.cursor := hc ▸ (List.getElem?_eq_some_iff.mp hj).1
  cases e with
  | notification _ => rfl
  | request call r =>
    cases r with
    | some _ => rfl
    | none =>
      have : b.requestById j = some ⟨j, call⟩ := requestById_eq_some.mpr ⟨hjl, rfl, hj⟩
      rw [hq j] at this
      cases this

/-- Served to the end, a batch is ready exactly when no request handed out before waits for its
answer. -/
theorem serveAll_ready_iff : (serveAll answer t b).isReadyToRespond ↔
    ∀ j < b.cursor, b.requestById j = none := by
  rw [isReadyToRespond_iff, serveAll_cursor]
  simp only [requestById_serveAll, serveAll_length, true_and]
  exact ⟨fun h j hj => by simpa [hj] using h j, fun h j => by split_ifs with hj; exacts [h j hj, rfl]⟩

theorem hasRequest_eq_false_iff : b.hasRequest = false ↔ ∀ e ∈ b.entries, e.isRequest = false := by
  simp [hasRequest, show ∀ l : List Bool, l.or = l.any id from fun _ => rfl, List.any_eq_false]

/-- A ready batch has a response exactly when it holds a request. -/
theorem response_isSome_of_ready (h : b.isReadyToRespond) : b.response.isSome = b.hasRequest := by
  have hset : ∀ e ∈ b.entries, e.isSettled := by
    simp only [isReadyToRespond, Bool.and_eq_true, List.all_eq_true] at h
    exact h.2
  have hout : (b.entries.filterMap Entry.output?).isEmpty = !b.hasRequest := by
    have hentry : ∀ e ∈ b.entries, (e.output? = none ↔ e.isRequest = false) := fun e he => by
      have := hset e he
      cases e with
      | notification _ => simp [Entry.output?, Entry.isRequest]
      | request c r => cases r <;> simp_all [Entry.output?, Entry.isRequest, Entry.isSettled]
    rw [Bool.eq_iff_iff, List.isEmpty_iff, List.filterMap_eq_nil_iff, Bool.not_eq_true',
      hasRequest_eq_false_iff]
    exact forall₂_congr hentry
  rw [← Bool.not_not b.hasRequest, ← hout]
  unfold response
  cases b.isBatch <;> cases b.entries.filterMap Entry.output? <;> rfl

end BatchState

/-! ## The registry under a server -/

namespace BatchesState

variable {T : Type} (answer : BatchesElem → Except Error JsonValue)

/-- The events the server gets from the batch `b` with user parameter `u` under `t`: its calls
left, in order, then its response, if the batch is then ready and has one. -/
def servedEvents (t : UInt64) (b : BatchState) (u : T) : List (BatchesEvent T) :=
  if h : b.cursor < b.entries.length then
    (b.entries[b.cursor].inc b.cursor).toEvent t :: servedEvents t (b.serveOne answer t) u
  else if b.isReadyToRespond then (b.response.map (.readyToSend · u)).toList else []
termination_by b.entries.length - b.cursor
decreasing_by rw [BatchState.serveOne_length, BatchState.serveOne_cursor h]; omega

/-- What the server still owes the ticket `t`. -/
def servedAt (s : BatchesState T) (t : UInt64) : List (BatchesEvent T) :=
  match s.batches.get? t with
  | some (b, u) => servedEvents answer t b u
  | none => []

/-- What the server leaves under `t`: nothing once the batch is ready, else the batch with every
call handed out and the requests among them answered. -/
def leftAt (s : BatchesState T) (t : UInt64) : Option (BatchState × T) :=
  (s.batches.get? t).bind fun (b, u) =>
    if (b.serveAll answer t).isReadyToRespond then none else some (b.serveAll answer t, u)

/-- What the server does with an event: it answers a request at once with `answer`; a
notification or a response needs nothing. -/
def respond (s : BatchesState T) : BatchesEvent T → BatchesState T
  | .request elem => s.setResponse elem (answer elem)
  | _ => s

/-- The server loop: `next_event` again and again, each call with its own order of the keys, each
returning an event (with the ticket it came from), each request answered before the next call. -/
inductive Serving : BatchesState T → List (UInt64 × BatchesEvent T) → BatchesState T → Prop
  | nil (s : BatchesState T) : Serving s [] s
  | cons {s s₁ s' : BatchesState T} {order : List UInt64} {e : UInt64 × BatchesEvent T}
      {es : List (UInt64 × BatchesEvent T)} :
      order.Perm s.batches.keys → nextEventFrom order s = .ok (some e, s₁) →
      Serving (respond answer s₁ e.2) es s' → Serving s (e :: es) s'

/-- The server loop run until `next_event` returns `None`, and the state it leaves. -/
def Serves (s : BatchesState T) (es : List (UInt64 × BatchesEvent T)) (s'' : BatchesState T) :
    Prop :=
  ∃ s' order, Serving answer s es s' ∧ order.Perm s'.batches.keys ∧
    nextEventFrom order s' = .ok (none, s'')

/-- The state once the batch `b` under `t` has given its event and the server has answered it:
moved past its next call with that call answered, or dropped. -/
def serveWork (t : UInt64) (b : BatchState) (s : BatchesState T) : BatchesState T :=
  if b.cursor < b.entries.length then
    { s with batches := s.batches.modify t fun (_, u) => (b.serveOne answer t, u) }
  else { s with batches := (s.batches.remove t).2 }

variable {answer}

/-! ### One batch -/

section Batch

variable {t : UInt64} {b : BatchState} {u : T}

theorem servedEvents_of_lt (h : b.cursor < b.entries.length) :
    servedEvents answer t b u =
      (b.entries[b.cursor].inc b.cursor).toEvent t :: servedEvents answer t (b.serveOne answer t) u := by
  rw [servedEvents, dif_pos h]

theorem servedEvents_of_le (h : b.entries.length ≤ b.cursor) :
    servedEvents answer t b u = pendingEvents t b u := by
  rw [servedEvents, dif_neg (Nat.not_lt.mpr h), pendingEvents_of_le h]

/-- The server's answer to the event a batch gives is the round `serveOne`. -/
theorem respond_afterWork {s : BatchesState T} {e : BatchesEvent T} (he : batchEvent t b u = some e) :
    respond answer (afterWork t b s) e = serveWork answer t b s := by
  unfold afterWork serveWork
  by_cases hp : b.cursor < b.entries.length
  · rw [if_pos hp, if_pos hp]
    rcases batchEvent_eq_some.mp he with ⟨inc, hinc, rfl⟩ | ⟨hnone, -⟩
    · rw [BatchState.next_of_lt hp, Option.some.injEq] at hinc
      subst hinc
      have hserve : b.serveOne answer t = _ := BatchState.serveOne_of_lt hp
      revert hserve
      cases b.entries[b.cursor] with
      | notification n => intro hserve; simp only [hserve, BatchState.next_of_lt hp]; rfl
      | request call r =>
        intro hserve
        simp only [Entry.inc, BatchInc.toEvent, respond, setResponse, Table.modify_modify]
        simp only [hserve, BatchState.next_of_lt hp]
        rfl
    · exact absurd hnone (by simp [next_fst_eq_none_iff, hp])
  · rw [if_neg hp, if_neg hp]
    rcases batchEvent_eq_some.mp he with ⟨inc, hinc, rfl⟩ | ⟨-, -, r, -, rfl⟩
    · exact absurd hinc (by simp [next_fst_eq_none_iff.mpr (Nat.not_lt.mp hp)])
    · rfl

/-- A batch served to the end owes a silent batch's nothing and leaves nothing of it. -/
theorem servedEvents_of_isSilent (hs : b.isSilent) : servedEvents answer t b u = [] := by
  have hle := (BatchState.cursor_eq_of_ready (BatchState.isReadyToRespond_of_isSilent hs)).ge
  rw [servedEvents_of_le hle, pendingEvents_of_hasWork_false (BatchState.hasWork_eq_false_of_isSilent hs)]

theorem serveAll_ready_of_isSilent (hs : b.isSilent) : (b.serveAll answer t).isReadyToRespond := by
  have hr := BatchState.isReadyToRespond_of_isSilent hs
  rwa [BatchState.serveAll_of_le (BatchState.cursor_eq_of_ready hr).ge]

variable (answer) in
/-- The events of a served batch: its calls left, then its response if it became ready with one. -/
theorem servedEvents_eq (t : UInt64) (b : BatchState) (u : T) :
    servedEvents answer t b u = b.callsLeft t ++
      if (b.serveAll answer t).isReadyToRespond then
        ((b.serveAll answer t).response.map (.readyToSend · u)).toList
      else [] := by
  obtain ⟨n, hn⟩ : ∃ n, b.entries.length - b.cursor = n := ⟨_, rfl⟩
  induction n generalizing b with
  | zero =>
    have hle : b.entries.length ≤ b.cursor := by omega
    rw [servedEvents, dif_neg (Nat.not_lt.mpr hle), BatchState.serveAll_of_le hle,
      BatchState.callsLeft_of_le hle, List.nil_append]
  | succ n ih =>
    have hlt : b.cursor < b.entries.length := by omega
    rw [servedEvents_of_lt hlt, ih (b.serveOne answer t)
      (by rw [BatchState.serveOne_length, BatchState.serveOne_cursor hlt]; omega),
      BatchState.serveAll_serveOne hlt, BatchState.callsLeft_of_lt hlt, List.cons_append]

end Batch

/-! ### One call and its answer -/

section Call

variable {s s₁ : BatchesState T} {t : UInt64} {b : BatchState} {u : T}

theorem total_load_serveWork (h : s.batches.get? t = some (b, u)) :
    (serveWork answer t b s).batches.total load < s.batches.total load := by
  unfold serveWork
  split_ifs with hp
  · have hl : load (b.serveOne answer t, u) + 1 = load (b, u) := by
      simp only [load, BatchState.serveOne_length, BatchState.serveOne_cursor hp]
      omega
    have := Table.total_modify h (fun (_, u) => (b.serveOne answer t, u)) load
    dsimp only at this ⊢
    omega
  · have := Table.total_remove h load
    have : 0 < load (b, u) := Nat.succ_pos _
    dsimp only
    omega

theorem leftAt_serveWork (h : s.batches.get? t = some (b, u)) (hw : b.hasWork = true) (t' : UInt64) :
    leftAt answer (serveWork answer t b s) t' = leftAt answer s t' := by
  unfold leftAt serveWork
  split_ifs with hp
  · rw [Table.get?_modify]
    split_ifs with ht
    · subst ht
      simp only [h, Option.map_some', Option.some_bind, BatchState.serveAll_serveOne hp]
    · rfl
  · rw [Table.get?_remove]
    split_ifs with ht
    · subst ht
      have hr : b.isReadyToRespond ∧ b.response.isSome := by
        simpa [BatchState.hasWork, hp] using hw
      simp [h, BatchState.serveAll_of_le (Nat.not_lt.mp hp), hr.1]
    · rfl

theorem servedAt_serveWork_self (h : s.batches.get? t = some (b, u)) {e : BatchesEvent T}
    (he : batchEvent t b u = some e) :
    servedAt answer s t = e :: servedAt answer (serveWork answer t b s) t := by
  unfold servedAt serveWork
  split_ifs with hp
  · rcases batchEvent_eq_some.mp he with ⟨inc, hinc, rfl⟩ | ⟨hnone, -⟩
    · rw [BatchState.next_of_lt hp, Option.some.injEq] at hinc
      simp [h, Table.get?_modify, servedEvents_of_lt hp, hinc]
    · exact absurd hnone (by simp [next_fst_eq_none_iff, hp])
  · simp only [h, Table.get?_remove, ite_true]
    rw [servedEvents_of_le (Nat.not_lt.mp hp), pendingEvents_of_batchEvent he, dif_neg hp]

theorem servedAt_serveWork_ne {t' : UInt64} (hne : t' ≠ t) :
    servedAt answer (serveWork answer t b s) t' = servedAt answer s t' := by
  unfold servedAt serveWork
  split_ifs <;> simp only [Table.get?_modify, Table.get?_remove, if_neg hne]

theorem leftAt_dropSilentOf (ks : List UInt64) (t : UInt64) :
    leftAt answer (dropSilentOf ks s) t = leftAt answer s t := by
  unfold leftAt
  rcases get?_dropSilentOf_cases ks t with h | ⟨h, b, u, hb, hs⟩
  · rw [h]
  · rw [h, hb]
    simp [serveAll_ready_of_isSilent hs]

theorem servedAt_dropSilentOf (ks : List UInt64) (t : UInt64) :
    servedAt answer (dropSilentOf ks s) t = servedAt answer s t := by
  unfold servedAt
  rcases get?_dropSilentOf_cases ks t with h | ⟨h, b, u, hb, hs⟩
  · rw [h]
  · rw [h, hb]
    exact (servedEvents_of_isSilent hs).symm

variable (answer) in
/-- **One call and its answer**: the load drops, what the server leaves stays as it was, and the
event comes off what its ticket is owed. -/
theorem nextEventFrom_serve_step {order : List UInt64} {e : UInt64 × BatchesEvent T}
    (horder : order.Perm s.batches.keys) (h : nextEventFrom order s = .ok (some e, s₁)) :
    (respond answer s₁ e.2).batches.total load < s.batches.total load ∧
      (∀ t, leftAt answer (respond answer s₁ e.2) t = leftAt answer s t) ∧
      ∀ t, servedAt answer s t = eventsOf t [e] ++ servedAt answer (respond answer s₁ e.2) t := by
  obtain ⟨ks, b, u, hb, hw, he, rfl⟩ := nextEventFrom_eq_some horder h
  rw [respond_afterWork he]
  refine ⟨Nat.lt_of_lt_of_le (total_load_serveWork hb) (total_load_dropSilentOf ks),
    fun t => (leftAt_serveWork hb hw t).trans (leftAt_dropSilentOf ks t), fun t => ?_⟩
  rw [← servedAt_dropSilentOf ks t]
  by_cases ht : e.1 = t
  · subst ht
    simp only [eventsOf, List.filterMap_cons, List.filterMap_nil, ite_true, List.singleton_append]
    exact servedAt_serveWork_self hb he
  · simp only [eventsOf, List.filterMap_cons, List.filterMap_nil, if_neg ht, List.nil_append]
    exact (servedAt_serveWork_ne (Ne.symm ht)).symm

variable (answer) in
/-- A call that returns no event leaves what the server leaves, and the server is owed
nothing more. -/
theorem nextEventFrom_none_served {order : List UInt64} (horder : order.Perm s.batches.keys)
    (h : nextEventFrom order s = .ok (none, s₁)) (t : UInt64) :
    s₁.batches.get? t = leftAt answer s t ∧ servedAt answer s t = [] := by
  obtain ⟨rfl, hnil⟩ := nextEventFrom_eq_none horder h
  show (s.batches.filterMapVal drainedEntry).get? t = _ ∧ _
  unfold leftAt servedAt
  rw [Table.get?_filterMapVal]
  rcases hb : s.batches.get? t with _ | ⟨b, u⟩
  · exact ⟨rfl, rfl⟩
  · have hp := hnil t
    rw [pendingAt_eq hb] at hp
    have hle : b.entries.length ≤ b.cursor := Nat.not_lt.mp fun hlt => by
      simp [pendingEvents_of_lt hlt] at hp
    simp only [Option.some_bind, drainedEntry, BatchState.exhaust_of_le hle,
      BatchState.serveAll_of_le hle, true_and]
    exact (servedEvents_of_le hle).trans hp

end Call

/-! ### Server loops -/

section Loop

variable {s s' s'' : BatchesState T} {es : List (UInt64 × BatchesEvent T)}

theorem Serving.spec (h : Serving answer s es s') :
    es.length + s'.batches.total load ≤ s.batches.total load ∧
      (∀ t, leftAt answer s' t = leftAt answer s t) ∧
      ∀ t, servedAt answer s t = eventsOf t es ++ servedAt answer s' t := by
  induction h with
  | nil => exact ⟨by simp, fun _ => rfl, fun _ => rfl⟩
  | @cons s s₁ s' order e es horder hstep _ ih =>
    obtain ⟨hl, hleft, hserved⟩ := nextEventFrom_serve_step answer horder hstep
    refine ⟨by simp only [List.length_cons]; omega, fun t => (ih.2.1 t).trans (hleft t),
      fun t => ?_⟩
    rw [hserved t, ih.2.2 t, eventsOf_cons t e es, List.append_assoc]

theorem Serves.spec (h : Serves answer s es s'') (t : UInt64) :
    s''.batches.get? t = leftAt answer s t ∧ eventsOf t es = servedAt answer s t := by
  obtain ⟨s', order, hserving, horder, hnone⟩ := h
  obtain ⟨-, hleft, hserved⟩ := hserving.spec
  obtain ⟨hget, hnil⟩ := nextEventFrom_none_served answer horder hnone t
  exact ⟨hget.trans (hleft t), by rw [hserved t, hnil, List.append_nil]⟩

end Loop

/-- **The server loop ends, and what it does.**  Whatever `answer` the server gives and whatever
order each call enumerates the keys in: the calls that return an event number at most
`unyielded + live`, so the call that returns `None` comes at the latest as the
`(unyielded + live + 1)`-th; no call panics; and every loop run until `None` leaves under each
ticket `leftAt` (nothing once its batch is ready) and gets from it the events `servedAt`: its
calls left, in order, then its response if the batch became ready with one. -/
theorem serving_spec (answer : BatchesElem → Except Error JsonValue) (s : BatchesState T) :
    (∀ es s', Serving answer s es s' → es.length ≤ s.unyielded + s.batches.keys.length) ∧
    (∀ es s', Serving answer s es s' → ∀ order, order.Perm s'.batches.keys →
      ∃ r, nextEventFrom order s' = .ok r) ∧
    ∀ es s'', Serves answer s es s'' → ∀ t,
      s''.batches.get? t = leftAt answer s t ∧ eventsOf t es = servedAt answer s t := by
  refine ⟨fun es s' h => ?_, fun _ _ _ _ horder => nextEventFrom_ok horder,
    fun _ _ h => h.spec⟩
  have := h.spec.1
  rw [total_load, total_load] at this
  omega

/-- **A server that answers every request at once empties the registry.**  From a state where no
request handed out waits for its answer (as `new`), every loop run until `None` ends with no batch
left, and from each open batch it gets the events of its calls left (`callsLeft`), in order and
none of them a response, then one response, the batch's with every request answered, exactly when
the batch holds a request. -/
theorem serving_empties (answer : BatchesElem → Except Error JsonValue) {s : BatchesState T}
    (idle : ∀ t b u j, s.batches.get? t = some (b, u) → b.requestById j = none)
    {es : List (UInt64 × BatchesEvent T)} {s'' : BatchesState T} (h : Serves answer s es s'') :
    s''.batches.keys = [] ∧ ∀ t b u, s.batches.get? t = some (b, u) →
      eventsOf t es = b.callsLeft t ++ ((b.serveAll answer t).response.map (.readyToSend · u)).toList ∧
      (∀ e ∈ (b.callsLeft t : List (BatchesEvent T)), e.isReadyToSend = false) ∧
      (b.serveAll answer t).response.isSome = b.hasRequest := by
  have hready : ∀ {t b u}, s.batches.get? t = some (b, u) →
      (b.serveAll answer t).isReadyToRespond :=
    fun hb => BatchState.serveAll_ready_iff.mpr fun j _ => idle _ _ _ j hb
  refine ⟨List.eq_nil_iff_forall_not_mem.mpr fun k hk => ?_, fun t b u hb => ⟨?_,
    fun _ => BatchState.isReadyToSend_of_mem_callsLeft, ?_⟩⟩
  · obtain ⟨v, hv⟩ := Table.mem_keys.mp hk
    rw [(h.spec k).1, leftAt] at hv
    rcases hb : s.batches.get? k with _ | ⟨b, u⟩ <;> rw [hb] at hv
    · cases hv
    · simp [hready hb] at hv
  · rw [(h.spec t).2, servedAt, hb]
    exact (servedEvents_eq answer t b u).trans (by rw [if_pos (hready hb)])
  · rw [BatchState.response_isSome_of_ready (hready hb), BatchState.hasRequest_serveAll]

/-- A server that answers every request with `null`. -/
def echoAnswer : BatchesElem → Except Error JsonValue := fun _ => .ok .null

/-- `busy` has no request handed out that waits for its answer. -/
theorem busy_idle : ∀ t b u j, busy.batches.get? t = some (b, u) → b.requestById j = none := by
  intro t b u j h
  have hmem : (t, b, u) ∈ [(0, echoPending, ()), (1, tickSilent, ()), (2, echoReady, ())] :=
    Table.get?_eq_some.mp h
  simp only [List.mem_cons, Prod.mk.injEq, List.mem_singleton, List.not_mem_nil, or_false] at hmem
  rcases hmem with ⟨-, rfl, -⟩ | ⟨-, rfl, -⟩ | ⟨-, rfl, -⟩
  · simp [BatchState.requestById, echoPending]
  · exact BatchState.requestById_of_ready (by decide) j
  · exact BatchState.requestById_of_ready (by decide) j

/-- What a server loop answering with `null` gets from `busy`: `echo` under `0`, then its
response, then the response `busy` held under `2`; the silent batch under `1` is dropped. -/
def busyServed : List (UInt64 × BatchesEvent Unit) :=
  [(0, echoRequest), (0, .readyToSend echoResponse ()), (2, .readyToSend echoResponse ())]

theorem busy_serving : Serving echoAnswer busy busyServed ⟨1, Table.empty⟩ :=
  .cons (List.Perm.refl _) rfl (@Serving.cons _ _ _ _ _ [0, 1, 2] _ _ (by decide) rfl
    (@Serving.cons _ _ _ _ _ [1, 2] _ _ (by decide) rfl (.nil _)))

theorem busy_serves : Serves echoAnswer busy busyServed ⟨1, Table.empty⟩ :=
  ⟨_, [], busy_serving, List.Perm.refl _, rfl⟩

theorem serving_spec_busy :
    Serves echoAnswer busy busyServed ⟨1, Table.empty⟩ ∧
      busyServed.length ≤ busy.unyielded + busy.batches.keys.length ∧
      ∀ t, (⟨1, Table.empty⟩ : BatchesState Unit).batches.get? t = leftAt echoAnswer busy t ∧
        eventsOf t busyServed = servedAt echoAnswer busy t :=
  have h := serving_spec echoAnswer busy
  ⟨busy_serves, h.1 _ _ busy_serving, h.2.2 _ _ busy_serves⟩

theorem serving_empties_busy :
    (∀ t b u j, busy.batches.get? t = some (b, u) → b.requestById j = none) ∧
    Serves echoAnswer busy busyServed ⟨1, Table.empty⟩ ∧
    (⟨1, Table.empty⟩ : BatchesState Unit).batches.keys = [] ∧
      ∀ t b u, busy.batches.get? t = some (b, u) →
        eventsOf t busyServed =
          b.callsLeft t ++ ((b.serveAll echoAnswer t).response.map (.readyToSend · u)).toList ∧
        (∀ e ∈ (b.callsLeft t : List (BatchesEvent Unit)), e.isReadyToSend = false) ∧
        (b.serveAll echoAnswer t).response.isSome = b.hasRequest :=
  ⟨busy_idle, busy_serves, serving_empties echoAnswer busy_idle busy_serves⟩

/-! ## After `inject` -/

/-- A scan returns an event exactly when some open batch has work. -/
theorem nextEventFrom_some_iff {s : BatchesState T} {order : List UInt64}
    (horder : order.Perm s.batches.keys) :
    (∃ e s', nextEventFrom order s = .ok (some e, s')) ↔
      ∃ t b u, s.batches.get? t = some (b, u) ∧ b.hasWork = true := by
  rcases nextEventFrom_cases order s (nodup_of_perm horder) (fun k hk => horder.subset hk) with
    ⟨hidle, h⟩ | ⟨pre, t, rest, b, u, rfl, -, -, hb, hw, h⟩ <;> rw [h]
  · simp only [Except.ok.injEq, Prod.mk.injEq, reduceCtorEq, false_and, exists_false, false_iff,
      not_exists, not_and, Bool.not_eq_true]
    intro t b u ht
    rw [← workAt_eq ht]
    exact hidle t (horder.mem_iff.mpr (Table.mem_keys.mpr ⟨_, ht⟩))
  · obtain ⟨e, he⟩ := Option.isSome_iff_exists.mp ((batchEvent_isSome (t := t) (u := u)).trans hw)
    exact ⟨fun _ => ⟨t, b, u, hb, hw⟩, fun _ => ⟨(t, e), _, by rw [he]; rfl⟩⟩

/-- A new batch has work exactly when its message has a call: an empty batch is ready at once,
with no response. -/
theorem hasWork_fromRequest (request : Request) :
    (BatchState.fromRequest request).hasWork = !request.calls.isEmpty := by
  cases request with
  | single call => simp [BatchState.hasWork, Request.calls]
  | batch calls =>
    cases calls with
    | nil => rfl
    | cons c cs => simp [BatchState.hasWork, Request.calls]

/-- **After `inject`, `next_event` returns an event exactly when there is work.**  The doc comment
of `next_event` promises `Some` at least once after `inject`.  Whatever the state and the order of
the keys, the call right after `inject` returns an event exactly when the message has a call or
an older batch has work: after an empty batch (`Batch([])`), with nothing else to do, it returns
`None`. -/
theorem inject_nextEvent {s s' : BatchesState T} {request : Request} {u : T}
    (hs : s.inject request u = some s') {order : List UInt64}
    (horder : order.Perm s'.batches.keys) :
    (∃ e s'', s'.nextEvent order = .ok (some e, s'')) ↔
      request.calls ≠ [] ∨ ∃ t b u', s.batches.get? t = some (b, u') ∧ b.hasWork = true := by
  obtain ⟨id, n, hprobe, rfl⟩ := inject_eq_some.mp hs
  have hvacant : s.batches.get? id = none := by
    have hc := probe_vacant hprobe
    exact Table.get?_eq_none.mpr fun h => by rw [Table.contains_iff.mpr h] at hc; cases hc
  obtain ⟨⟨r, s''⟩, hr⟩ := nextEventFrom_ok horder
  have hevent : (∃ e s'', (s.store id n request u).nextEvent order = .ok (some e, s'')) ↔
      ∃ e s'', nextEventFrom order (s.store id n request u) = .ok (some e, s'') := by
    rw [nextEvent_of_nextEventFrom hr, hr]
    cases r <;> simp
  rw [hevent, nextEventFrom_some_iff horder]
  constructor
  · rintro ⟨t, b, u', ht, hw⟩
    rw [store_get?] at ht
    split_ifs at ht with hid
    · cases ht
      rw [hasWork_fromRequest] at hw
      exact .inl (by simpa using hw)
    · exact .inr ⟨t, b, u', ht, hw⟩
  · rintro (hcalls | ⟨t, b, u', ht, hw⟩)
    · exact ⟨id, _, u, by rw [store_get?, if_pos rfl], by simpa [hasWork_fromRequest] using hcalls⟩
    · have hid : t ≠ id := by rintro rfl; rw [hvacant] at ht; cases ht
      exact ⟨t, b, u', by rw [store_get?, if_neg hid, ht], hw⟩

theorem inject_nextEvent_emptyBatch :
    (new : BatchesState Unit).inject (.batch []) () =
        some ((new : BatchesState Unit).store 0 1 (.batch []) ()) ∧
      [0].Perm ((new : BatchesState Unit).store 0 1 (.batch []) ()).batches.keys ∧
      ((∃ e s'', ((new : BatchesState Unit).store 0 1 (.batch []) ()).nextEvent [0] =
          .ok (some e, s'')) ↔
        (Request.batch []).calls ≠ [] ∨
          ∃ t b u', (new : BatchesState Unit).batches.get? t = some (b, u') ∧ b.hasWork = true) :=
  have hs : (new : BatchesState Unit).inject (.batch []) () =
      some ((new : BatchesState Unit).store 0 1 (.batch []) ()) := rfl
  ⟨hs, List.Perm.refl _, inject_nextEvent hs (List.Perm.refl _)⟩

end BatchesState

end Plibra
