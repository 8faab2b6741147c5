import Plibra.Batches.Run
import Plibra.Batches.Drain

/-!
# Plibra.Batches.Replay — each batch as if it were alone

The registry keeps every open message in one map and serves them in whatever order the map lists
its keys.  Seen from one ticket, a run is still the life of one `BatchState` on its own: the
`from_request` of the message injected under it, its calls handed out one by one, the answers
given on the handles that carry the ticket, and last its response.  `replay` is that batch,
computed from the log alone, and `Slot` says what a run has made of one ticket: never used, open
with `replay` in the map, or retired with every call out, every request answered and the response
sent if there was one.  `Slot.work`, `Slot.drop`, `Slot.answer` and `Slot.write` are what one
call of the host does to it.
-/

namespace Plibra

/-- Whether the call is a request (a method call, which gets an answer). -/
def Call.isMethodCall : Call → Bool
  | .methodCall _ => true
  | .notification _ => false

/-- The indices of the requests among the calls of a message. -/
def Request.requestIndices (request : Request) : List Nat :=
  (List.range request.calls.length).filter fun j => request.calls[j]?.any Call.isMethodCall

theorem Request.mem_requestIndices {request : Request} {j : Nat} :
    j ∈ request.requestIndices ↔ ∃ c, request.calls[j]? = some (.methodCall c) := by
  simp only [Request.requestIndices, List.mem_filter, List.mem_range]
  constructor
  · rintro ⟨hj, ha⟩
    rw [List.getElem?_eq_getElem hj] at ha ⊢
    generalize request.calls[j] = c at ha
    cases c with
    | methodCall c => exact ⟨c, rfl⟩
    | notification n => cases ha
  · rintro ⟨c, hc⟩
    exact ⟨(List.getElem?_eq_some_iff.mp hc).1, by rw [hc]; rfl⟩

namespace Op

variable {T : Type}

/-- The event a `next_event` returned, with the ticket it came from. -/
def event? : Op T → Option (UInt64 × BatchesEvent T)
  | .nextEvent _ event => event
  | _ => none

/-- The message an `inject` stored under `t`. -/
def injected? (t : UInt64) : Op T → Option Request
  | .inject request _ t' => if t' = t then some request else none
  | _ => none

/-- The value an `inject`, or a write through a `&mut T`, left in the entry of `t`. -/
def param? (t : UInt64) : Op T → Option T
  | .inject _ u t' | .setUserParam t' u => if t' = t then some u else none
  | _ => none

/-- The answer a `set_response` gave on a handle that carries the ticket `t`, with the index of
its request. -/
def answer? (t : UInt64) : Op T → Option (Nat × Except Error JsonValue)
  | .setResponse id response => if id.outer = t then some (id.inner, response) else none
  | _ => none

end Op

namespace BatchState

/-- The batch of `request` alone: `from_request`, its first `k` calls handed out, then the answers
`answers` given to it, in order. -/
def replay (request : Request) (k : Nat) (answers : List (Nat × Except Error JsonValue)) :
    BatchState :=
  answers.foldl (fun b a => b.setResponse a.1 a.2) ((fromRequest request).handOut k)

/-! ### The batch alone -/

theorem foldl_setResponse_shape (answers : List (Nat × Except Error JsonValue)) (b : BatchState) :
    (answers.foldl (fun b a => b.setResponse a.1 a.2) b).cursor = b.cursor ∧
      (answers.foldl (fun b a => b.setResponse a.1 a.2) b).entries.length = b.entries.length := by
  induction answers generalizing b with
  | nil => exact ⟨rfl, rfl⟩
  | cons a answers ih => simpa using ih (b.setResponse a.1 a.2)

theorem requestById_foldl_setResponse (answers : List (Nat × Except Error JsonValue))
    (b : BatchState) (j : Nat) :
    (answers.foldl (fun b a => b.setResponse a.1 a.2) b).requestById j =
      if j ∈ answers.map Prod.fst then none else b.requestById j := by
  induction answers generalizing b with
  | nil => simp
  | cons a answers ih =>
    rw [List.foldl_cons, ih, requestById_setResponse]
    by_cases h₁ : j ∈ answers.map Prod.fst <;> by_cases h₂ : j = a.1 <;> simp [h₁, h₂]

/-- Answers to requests already handed out commute with the next handout. -/
theorem next_foldl_setResponse (answers : List (Nat × Except Error JsonValue)) (b : BatchState)
    (h : ∀ a ∈ answers, a.1 < b.cursor) :
    (answers.foldl (fun b a => b.setResponse a.1 a.2) b).next =
      (b.next.1, answers.foldl (fun b a => b.setResponse a.1 a.2) b.next.2) := by
  induction answers generalizing b with
  | nil => rfl
  | cons a answers ih =>
    rw [List.foldl_cons, ih _ fun a' ha' => by
      rw [setResponse_cursor]; exact h a' (List.mem_cons_of_mem _ ha'),
      next_setResponse (h a (List.mem_cons_self _ _))]
    rfl

variable {request : Request} {k : Nat} {answers : List (Nat × Except Error JsonValue)}

theorem replay_append (a : Nat × Except Error JsonValue) :
    replay request k (answers ++ [a]) = (replay request k answers).setResponse a.1 a.2 := by
  simp only [replay, List.foldl_append, List.foldl_cons, List.foldl_nil]

theorem replay_length : (replay request k answers).entries.length = request.calls.length := by
  rw [replay, (foldl_setResponse_shape _ _).2, handOut_entries, fromRequest_entries, List.length_map]

theorem replay_cursor (hk : k ≤ request.calls.length) : (replay request k answers).cursor = k := by
  rw [replay, (foldl_setResponse_shape _ _).1, handOut_cursor, fromRequest_cursor,
    fromRequest_entries, List.length_map]
  omega

theorem requestById_handOut {j : Nat} {e : BatchElem} :
    ((fromRequest request).handOut k).requestById j = some e ↔
      j < k ∧ e.index = j ∧ request.calls[j]? = some (.methodCall e.call) := by
  rw [requestById_eq_some, handOut_cursor, handOut_entries, fromRequest_cursor, fromRequest_entries,
    List.length_map, List.getElem?_map]
  constructor
  · rintro ⟨hj, he, hc⟩
    refine ⟨by omega, he, ?_⟩
    rcases hc' : request.calls[j]? with _ | c <;> rw [hc'] at hc
    · cases hc
    · cases c <;> simp_all [Entry.ofCall]
  · rintro ⟨hj, he, hc⟩
    exact ⟨Nat.lt_min.mpr ⟨by omega, (List.getElem?_eq_some_iff.mp hc).1⟩, he, by rw [hc]; rfl⟩

theorem replay_requestById (j : Nat) :
    (replay request k answers).requestById j =
      if j ∈ answers.map Prod.fst then none else ((fromRequest request).handOut k).requestById j :=
  requestById_foldl_setResponse _ _ _

/-- The next handout of the batch alone: the call at `k`, and the batch with `k + 1` calls out. -/
theorem replay_next (hk : k ≤ request.calls.length) (h : ∀ a ∈ answers, a.1 < k) :
    (replay request k answers).next =
      (request.calls[k]?.map fun c => (Entry.ofCall c).inc k, replay request (k + 1) answers) := by
  have hc : ((fromRequest request).handOut k).cursor = k := by
    rw [handOut_cursor, fromRequest_cursor, fromRequest_entries, List.length_map]; omega
  rw [replay, next_foldl_setResponse _ _ (by rw [hc]; exact h)]
  refine Prod.ext ?_ rfl
  by_cases hp : k < request.calls.length
  · have hp' : ((fromRequest request).handOut k).cursor <
        ((fromRequest request).handOut k).entries.length := by simpa [hc] using hp
    simp [next_of_lt hp', hc, List.getElem?_eq_getElem hp]
  · have hp' : ((fromRequest request).handOut k).entries.length ≤
        ((fromRequest request).handOut k).cursor := by simp [hc]; omega
    rw [next_of_le hp', List.getElem?_eq_none (by omega)]
    rfl

end BatchState

namespace BatchesState

variable {T : Type}

/-! ### What a log says of one ticket -/

/-- The events of a log, each with the ticket it came from. -/
def events (log : List (Op T)) : List (UInt64 × BatchesEvent T) := log.filterMap Op.event?

/-- The events that came from the ticket `t`, in order. -/
def eventsAt (log : List (Op T)) (t : UInt64) : List (BatchesEvent T) := eventsOf t (events log)

/-- The answers given on handles that carry the ticket `t`, in order. -/
def answersAt (log : List (Op T)) (t : UInt64) : List (Nat × Except Error JsonValue) :=
  log.filterMap (Op.answer? t)

/-- The message injected under `t` (the last one; a run injects under each ticket at most once). -/
def injectOf (log : List (Op T)) (t : UInt64) : Option Request :=
  (log.filterMap (Op.injected? t)).getLast?

/-- The value last left in the entry of `t`. -/
def userParamAt (log : List (Op T)) (t : UInt64) : Option T :=
  (log.filterMap (Op.param? t)).getLast?

/-- The event that hands out the call `c` at index `j` of the message under `t`. -/
def callEvent (t : UInt64) (j : Nat) : Call → BatchesEvent T
  | .notification n => .notification n t
  | .methodCall c => .request ⟨t, ⟨j, c⟩⟩

/-- The events that hand out the first `k` calls of `request` under `t`, in order. -/
def handouts (t : UInt64) (request : Request) : Nat → List (BatchesEvent T)
  | 0 => []
  | k + 1 => handouts t request k ++ (request.calls[k]?.map (callEvent t k)).toList

/-- The answers given to a batch whose first `k` calls are out: no request twice, and only
requests handed out. -/
structure AnswersOk (request : Request) (k : Nat) (answers : List (Nat × Except Error JsonValue)) :
    Prop where
  nodup : (answers.map Prod.fst).Nodup
  handedOut : ∀ a ∈ answers, a.1 < k
  isRequest : ∀ a ∈ answers, a.1 ∈ request.requestIndices

/-- What a run has made of the ticket `t`: from the message injected under it, the events that
came from it, the answers given to it and the value last left in its entry, and what the map
holds under it. -/
inductive Slot (t : UInt64) : Option Request → List (BatchesEvent T) →
    List (Nat × Except Error JsonValue) → Option T → Option (BatchState × T) → Prop
  /-- Never used. -/
  | vacant : Slot t none [] [] none none
  /-- Open: the message's own batch, with `k` calls out and the answers so far. -/
  | live {request : Request} {k : Nat} {answers : List (Nat × Except Error JsonValue)} {u : T} :
      k ≤ request.calls.length → AnswersOk request k answers →
      Slot t (some request) (handouts t request k) answers (some u)
        (some (BatchState.replay request k answers, u))
  /-- Retired: every call out, every request answered, the response sent if there was one. -/
  | retired {request : Request} {answers : List (Nat × Except Error JsonValue)} {u : T} :
      AnswersOk request request.calls.length answers →
      (BatchState.replay request request.calls.length answers).isReadyToRespond →
      Slot t (some request)
        (handouts t request request.calls.length ++
          ((BatchState.replay request request.calls.length answers).response.map
            (.readyToSend · u)).toList)
        answers (some u) none

/-! ### What a log says of one ticket, op by op -/

section Log

variable (log : List (Op T)) (op : Op T) (t : UInt64)

theorem eventsAt_append : eventsAt (log ++ [op]) t = eventsAt log t ++ eventsOf t op.event?.toList := by
  cases h : op.event? <;> simp [eventsAt, events, eventsOf, h]

theorem answersAt_append : answersAt (log ++ [op]) t = answersAt log t ++ (op.answer? t).toList := by
  cases h : op.answer? t <;> simp [answersAt, h]

theorem injectOf_append : injectOf (log ++ [op]) t = (op.injected? t).or (injectOf log t) := by
  cases h : op.injected? t <;> simp [injectOf, h]

theorem userParamAt_append : userParamAt (log ++ [op]) t = (op.param? t).or (userParamAt log t) := by
  cases h : op.param? t <;> simp [userParamAt, h]

end Log

theorem mem_tickets_of_injectOf {log : List (Op T)} {t : UInt64} {request : Request}
    (h : injectOf log t = some request) : t ∈ tickets log := by
  obtain ⟨op, hop, hinj⟩ := List.mem_filterMap.mp (List.mem_of_getLast?_eq_some h)
  cases op <;> simp only [Op.injected?, reduceCtorEq] at hinj
  split_ifs at hinj with ht
  exact List.mem_filterMap.mpr ⟨_, hop, by rw [Op.ticket?, ht]⟩

/-! ### Handouts -/

section Handouts

variable {t : UInt64} {request : Request} {k : Nat}

theorem toEvent_inc_ofCall (t : UInt64) (j : Nat) (c : Call) :
    ((Entry.ofCall c).inc j).toEvent t = (callEvent t j c : BatchesEvent T) := by
  cases c <;> rfl

theorem callEvent_eq_request {j : Nat} {c : Call} {elem : BatchesElem}
    (h : (callEvent t j c : BatchesEvent T) = .request elem) :
    elem.batchId = t ∧ elem.inner.index = j ∧ c = .methodCall elem.inner.call := by
  cases c with
  | notification n => cases h
  | methodCall c => cases h; exact ⟨rfl, rfl, rfl⟩

theorem handouts_succ_of_getElem? {c : Call} (hc : request.calls[k]? = some c) :
    (handouts t request (k + 1) : List (BatchesEvent T)) = handouts t request k ++ [callEvent t k c] := by
  rw [handouts, hc]; rfl

theorem mem_handouts {e : BatchesEvent T} :
    e ∈ handouts t request k ↔ ∃ j < k, ∃ c, request.calls[j]? = some c ∧ e = callEvent t j c := by
  induction k with
  | zero => simp [handouts]
  | succ k ih =>
    rw [handouts, List.mem_append, ih]
    constructor
    · rintro (⟨j, hj, c, hc, rfl⟩ | he)
      · exact ⟨j, Nat.lt_succ_of_lt hj, c, hc, rfl⟩
      · rcases hc : request.calls[k]? with _ | c <;> rw [hc] at he
        · cases he
        · exact ⟨k, Nat.lt_succ_self k, c, hc, List.mem_singleton.mp he⟩
    · rintro ⟨j, hj, c, hc, rfl⟩
      rcases Nat.lt_succ_iff_lt_or_eq.mp hj with hj | rfl
      · exact .inl ⟨j, hj, c, hc, rfl⟩
      · exact .inr (by rw [hc]; exact List.mem_singleton_self _)

/-- A request handed out under `t` is a request of the message, at its own index. -/
theorem request_mem_handouts {elem : BatchesElem} (h : .request elem ∈ (handouts t request k : List (BatchesEvent T))) :
    elem.batchId = t ∧ elem.inner.index < k ∧
      request.calls[elem.inner.index]? = some (.methodCall elem.inner.call) := by
  obtain ⟨j, hj, c, hc, he⟩ := mem_handouts.mp h
  obtain ⟨hb, rfl, rfl⟩ := callEvent_eq_request he.symm
  exact ⟨hb, hj, hc⟩

end Handouts

/-! ### One ticket, one call -/

section Slot

variable {t : UInt64} {M? : Option Request} {ev : List (BatchesEvent T)}
  {ans : List (Nat × Except Error JsonValue)} {p : Option T} {b : BatchState} {u : T}

theorem AnswersOk.mono {request : Request} {k k' : Nat} {answers : List (Nat × Except Error JsonValue)}
    (h : AnswersOk request k answers) (hk : k ≤ k') : AnswersOk request k' answers :=
  ⟨h.nodup, fun a ha => Nat.lt_of_lt_of_le (h.handedOut a ha) hk, h.isRequest⟩

/-- `inject` under a ticket never used opens it with the message's batch. -/
theorem Slot.inject {slot : Option (BatchState × T)} (h : Slot t none ev ans p slot)
    (request : Request) (u : T) :
    Slot t (some request) ev ans (some u) (some (BatchState.fromRequest request, u)) := by
  cases h
  exact Slot.live (k := 0) (Nat.zero_le _) ⟨List.nodup_nil, by simp, by simp⟩

/-- The scan stops at the batch and takes its event: the next call, or the response. -/
theorem Slot.work (h : Slot t M? ev ans p (some (b, u))) {e : BatchesEvent T}
    (he : batchEvent t b u = some e) :
    Slot t M? (ev ++ [e]) ans p (if b.cursor < b.entries.length then some (b.next.2, u) else none) := by
  cases h with
  | @live request k _ _ hk hans =>
    have hnext := BatchState.replay_next hk hans.handedOut
    rw [BatchState.replay_cursor hk, BatchState.replay_length]
    by_cases hp : k < request.calls.length
    · obtain ⟨c, hc⟩ : ∃ c, request.calls[k]? = some c := ⟨_, List.getElem?_eq_getElem hp⟩
      simp only [batchEvent, hnext, hc, Option.map_some', Option.some.injEq,
        toEvent_inc_ofCall] at he
      rw [if_pos hp, hnext, ← he, ← handouts_succ_of_getElem? hc]
      exact Slot.live hp (hans.mono (Nat.le_succ k))
    · obtain rfl : k = request.calls.length := by omega
      rcases batchEvent_eq_some.mp he with ⟨inc, hinc, -⟩ | ⟨-, hr, r, hres, rfl⟩
      · simp [hnext] at hinc
      · have := Slot.retired (t := t) (u := u) hans hr
        rw [hres] at this
        rw [if_neg hp]
        exact this

/-- The scan drops a silent batch: the ticket retires without an event. -/
theorem Slot.drop (h : Slot t M? ev ans p (some (b, u))) (hs : b.isSilent) :
    Slot t M? ev ans p none := by
  cases h with
  | @live request k _ _ hk hans =>
    have hr := BatchState.isReadyToRespond_of_isSilent hs
    obtain rfl : k = request.calls.length := by
      have := BatchState.cursor_eq_of_ready hr
      rwa [BatchState.replay_cursor hk, BatchState.replay_length] at this
    have hn : (BatchState.replay request request.calls.length ans).response = none := by
      simpa [BatchState.isSilent, hr] using hs
    have := Slot.retired (t := t) (u := u) hans hr
    rwa [hn, Option.map_none', Option.toList_none, List.append_nil] at this

/-- `set_response` on a handle of the batch fills the slot of its request. -/
theorem Slot.answer (h : Slot t M? ev ans p (some (b, u))) {j : Nat} {inner : BatchElem}
    (hq : b.requestById j = some inner) (response : Except Error JsonValue) :
    Slot t M? ev (ans ++ [(j, response)]) p (some (b.setResponse j response, u)) := by
  cases h with
  | @live request k _ _ hk hans =>
    rw [BatchState.replay_requestById] at hq
    split_ifs at hq with hj
    obtain ⟨hjk, -, hc⟩ := BatchState.requestById_handOut.mp hq
    rw [show (BatchState.replay request k ans).setResponse j response =
      BatchState.replay request k (ans ++ [(j, response)]) from (BatchState.replay_append (j, response)).symm]
    refine Slot.live hk ⟨?_, fun a ha => ?_, fun a ha => ?_⟩
    · simpa [List.nodup_append, hj] using hans.nodup
    · rcases List.mem_append.mp ha with ha | ha
      · exact hans.handedOut a ha
      · rw [List.mem_singleton.mp ha]; exact hjk
    · rcases List.mem_append.mp ha with ha | ha
      · exact hans.isRequest a ha
      · rw [List.mem_singleton.mp ha]; exact Request.mem_requestIndices.mpr ⟨_, hc⟩

/-- A write through a `&mut T` into the entry. -/
theorem Slot.write (h : Slot t M? ev ans p (some (b, u))) (v : T) :
    Slot t M? ev ans (some v) (some (b, v)) := by
  cases h with
  | live hk hans => exact Slot.live hk hans

/-- A request the open batch gives back by id was handed out by a `Request` event. -/
theorem Slot.mem_of_requestById (h : Slot t M? ev ans p (some (b, u))) {j : Nat} {inner : BatchElem}
    (hq : b.requestById j = some inner) : .request ⟨t, inner⟩ ∈ ev := by
  cases h with
  | @live request k _ _ hk hans =>
    rw [BatchState.replay_requestById] at hq
    split_ifs at hq
    obtain ⟨hjk, rfl, hc⟩ := BatchState.requestById_handOut.mp hq
    exact mem_handouts.mpr ⟨_, hjk, _, hc, rfl⟩

/-- A request handed out under `t` can be looked up until it is answered; once it is answered it
cannot, and if the batch has retired it has been answered. -/
theorem Slot.lookup {slot : Option (BatchState × T)} (h : Slot t M? ev ans p slot)
    {elem : BatchesElem} (he : .request elem ∈ ev) :
    elem.batchId = t ∧
      ((∃ b u, slot = some (b, u) ∧ b.requestById elem.inner.index =
          if elem.inner.index ∈ ans.map Prod.fst then none else some elem.inner) ∨
        (slot = none ∧ elem.inner.index ∈ ans.map Prod.fst)) := by
  cases h with
  | vacant => cases he
  | @live request k _ u hk hans =>
    obtain ⟨hb, hjk, hc⟩ := request_mem_handouts he
    refine ⟨hb, .inl ⟨_, u, rfl, ?_⟩⟩
    rw [BatchState.replay_requestById]
    split_ifs
    · rfl
    · exact BatchState.requestById_handOut.mpr ⟨hjk, rfl, hc⟩
  | @retired request _ u hans hr =>
    rcases List.mem_append.mp he with he | he
    · obtain ⟨hb, hjk, hc⟩ := request_mem_handouts he
      refine ⟨hb, .inr ⟨rfl, by_contra fun hj => ?_⟩⟩
      have := BatchState.requestById_of_ready hr elem.inner.index
      rw [BatchState.replay_requestById, if_neg hj,
        BatchState.requestById_handOut.mpr ⟨hjk, rfl, hc⟩] at this
      cases this
    · cases hres : (BatchState.replay request request.calls.length ans).response <;>
        simp [hres] at he

/-- The open batch under `t` is the message's own batch, with the value last left in its entry. -/
theorem Slot.live_eq (h : Slot t M? ev ans p (some (b, u))) :
    ∃ request, M? = some request ∧ b = BatchState.replay request b.cursor ans ∧ p = some u := by
  cases h with
  | @live request k _ _ hk hans => exact ⟨request, rfl, by rw [BatchState.replay_cursor hk], rfl⟩

/-- Every event from `t` hands out a call of the message under it, or sends that message's own
response with the value last left in its entry. -/
theorem Slot.event_cases {slot : Option (BatchState × T)} (h : Slot t M? ev ans p slot)
    {e : BatchesEvent T} (he : e ∈ ev) :
    ∃ request, M? = some request ∧
      ((∃ j c, request.calls[j]? = some c ∧ e = callEvent t j c) ∨
        (∃ r u, e = .readyToSend r u ∧ p = some u ∧ slot = none ∧
          (BatchState.replay request request.calls.length ans).intoResponse = .ok (some r))) := by
  cases h with
  | vacant => cases he
  | @live request k _ _ hk hans =>
    obtain ⟨j, -, c, hc, rfl⟩ := mem_handouts.mp he
    exact ⟨request, rfl, .inl ⟨j, c, hc, rfl⟩⟩
  | @retired request _ u hans hr =>
    refine ⟨request, rfl, ?_⟩
    rcases List.mem_append.mp he with he | he
    · obtain ⟨j, -, c, hc, rfl⟩ := mem_handouts.mp he
      exact .inl ⟨j, c, hc, rfl⟩
    · rcases hres : (BatchState.replay request request.calls.length ans).response with _ | r <;>
        rw [hres] at he
      · cases he
      · exact .inr ⟨r, u, List.mem_singleton.mp he, rfl, rfl,
          by rw [BatchState.intoResponse_of_ready hr, hres]⟩

/-- Once the batch alone is ready, the answers went to its requests, each exactly once. -/
theorem AnswersOk.perm_of_ready {request : Request} {answers : List (Nat × Except Error JsonValue)}
    (h : AnswersOk request request.calls.length answers)
    (hr : (BatchState.replay request request.calls.length answers).isReadyToRespond) :
    (answers.map Prod.fst).Perm request.requestIndices := by
  refine (List.perm_ext_iff_of_nodup h.nodup ((List.nodup_range _).filter _)).mpr
    fun j => ⟨fun hj => ?_, fun hj => by_contra fun hn => ?_⟩
  · obtain ⟨a, ha, rfl⟩ := List.mem_map.mp hj
    exact h.isRequest a ha
  · obtain ⟨c, hc⟩ := Request.mem_requestIndices.mp hj
    have := BatchState.requestById_of_ready hr j
    rw [BatchState.replay_requestById, if_neg hn, BatchState.requestById_handOut (e := ⟨j, c⟩)
      |>.mpr ⟨(List.getElem?_eq_some_iff.mp hc).1, rfl, hc⟩] at this
    cases this

/-- The life of one message's batch: the events from its ticket are its first `k` calls in order,
then at most one response; it leaves the map only with every call out and every request
answered exactly once. -/
theorem Slot.lifecycle {request : Request} {slot : Option (BatchState × T)}
    (h : Slot t (some request) ev ans p slot) :
    ∃ k ≤ request.calls.length, ∃ tail, ev = handouts t request k ++ tail ∧ tail.length ≤ 1 ∧
      (∀ e ∈ tail, ∃ r u, e = .readyToSend r u) ∧ (tail ≠ [] → slot = none) ∧
      (slot = none → k = request.calls.length ∧ (ans.map Prod.fst).Perm request.requestIndices) := by
  cases h with
  | live hk hans =>
    exact ⟨_, hk, [], (List.append_nil _).symm, Nat.zero_le _, by simp, by simp, by simp⟩
  | @retired _ _ u hans hr =>
    refine ⟨_, le_rfl, _, rfl, ?_, fun e he => ?_, fun _ => rfl,
      fun _ => ⟨rfl, hans.perm_of_ready hr⟩⟩
    · cases (BatchState.replay request request.calls.length ans).response <;> simp
    · rcases hres : (BatchState.replay request request.calls.length ans).response with _ | r <;>
        rw [hres] at he
      · cases he
      · exact ⟨r, u, List.mem_singleton.mp he⟩

end Slot

/-! ### One call of `next_event`, at one ticket -/

/-- What one call does at one ticket: it leaves the ticket as it was or drops its silent batch,
giving it no event; or it takes the event of its batch, which had work. -/
theorem nextEventFrom_at {s s' : BatchesState T} {order : List UInt64}
    {r : Option (UInt64 × BatchesEvent T)} (horder : order.Perm s.batches.keys)
    (h : nextEventFrom order s = .ok (r, s')) (t : UInt64) :
    (eventsOf t r.toList = [] ∧ (s'.batches.get? t = s.batches.get? t ∨
        ∃ b u, s.batches.get? t = some (b, u) ∧ b.isSilent ∧ s'.batches.get? t = none)) ∨
      ∃ b u e, s.batches.get? t = some (b, u) ∧ eventsOf t r.toList = [e] ∧
        batchEvent t b u = some e ∧
        s'.batches.get? t = if b.cursor < b.entries.length then some (b.next.2, u) else none := by
  have hdrop : ∀ ks : List UInt64, (dropSilentOf ks s).batches.get? t = s.batches.get? t ∨
      ∃ b u, s.batches.get? t = some (b, u) ∧ b.isSilent ∧ (dropSilentOf ks s).batches.get? t = none :=
    fun ks => (get?_dropSilentOf_cases ks t).imp_right fun ⟨hn, b, u, hb, hs⟩ => ⟨b, u, hb, hs, hn⟩
  rcases nextEventFrom_cases order s (nodup_of_perm horder) (fun k hk => horder.subset hk) with
    ⟨_, h'⟩ | ⟨pre, t₀, rest, b, u, rfl, htpre, -, hb, hw, h'⟩ <;> rw [h'] at h <;> cases h
  · exact .inl ⟨rfl, hdrop order⟩
  · obtain ⟨e, he⟩ := Option.isSome_iff_exists.mp ((batchEvent_isSome (t := t₀) (u := u)).trans hw)
    rw [he]
    by_cases ht : t = t₀
    · subst ht
      have hb' : (dropSilentOf pre s).batches.get? t = some (b, u) := by
        rw [get?_dropSilentOf_of_not_mem htpre, hb]
      exact .inr ⟨b, u, e, hb, by simp [eventsOf], he, get?_afterWork_self hb'⟩
    · exact .inl ⟨by simp [eventsOf, Ne.symm ht], by rw [get?_afterWork_ne ht]; exact hdrop pre⟩

end BatchesState

end Plibra
