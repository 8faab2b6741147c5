import Plibra.Batches.Replay

/-!
# Plibra.Batches.Routing — every answer reaches its own message

The run invariant `Routed`: along every run with at most `2^64` injects, every ticket is as
`Slot` says (never used, open with the message's own batch, or retired), and every handle
`request_by_id` gave back is one a `Request` event handed out.  One lemma per call of the host
(`Routed.inject`, `Routed.nextEvent`, `Routed.requestById`, `Routed.setResponse`,
`Routed.setUserParam`) and induction over the run give `run_routed`; the three theorems at the end
read it at one request id, one event, and one ticket.
-/

namespace Plibra

namespace BatchesState

variable {T : Type}

/-- The run invariant: every ticket is as `Slot` says, and every handle `request_by_id` gave back
is one a `Request` event handed out, with the id it was asked for. -/
structure Routed (log : List (Op T)) (s : BatchesState T) : Prop where
  slot : ∀ t, Slot t (injectOf log t) (eventsAt log t) (answersAt log t) (userParamAt log t)
    (s.batches.get? t)
  lookup : ∀ i elem, Op.requestById i (some elem) ∈ log →
    .request elem ∈ eventsAt log i.outer ∧ elem.id = i

/-- A request id issued in a log: by a `Request` event, or given back by `request_by_id`. -/
def Issued (log : List (Op T)) (i : BatchesElemId) (elem : BatchesElem) : Prop :=
  ((∃ order t, Op.nextEvent order (some (t, .request elem)) ∈ log) ∧ elem.id = i) ∨
    Op.requestById i (some elem) ∈ log

/-- Whether a log holds a `set_response` on a handle with id `i`. -/
def Answered (log : List (Op T)) (i : BatchesElemId) : Prop :=
  ∃ response, Op.setResponse i response ∈ log

section Steps

variable {log : List (Op T)} {s : BatchesState T}

theorem routed_new : Routed [] (new : BatchesState T) :=
  ⟨fun _ => Slot.vacant, fun _ _ h => absurd h (List.not_mem_nil _)⟩

/-- A call that `request_by_id` did not make adds no handle to check. -/
theorem Routed.lookup_append (h : Routed log s) {op : Op T}
    (hop : ∀ i elem, op ≠ .requestById i (some elem)) :
    ∀ i elem, Op.requestById i (some elem) ∈ log ++ [op] →
      .request elem ∈ eventsAt (log ++ [op]) i.outer ∧ elem.id = i := by
  intro i elem hmem
  rcases List.mem_append.mp hmem with hmem | hmem
  · obtain ⟨he, hid⟩ := h.lookup i elem hmem
    exact ⟨by rw [eventsAt_append]; exact List.mem_append_left _ he, hid⟩
  · exact absurd (List.mem_singleton.mp hmem).symm (hop i elem)

/-- While at most `2^64` batches have been injected, `inject` uses a ticket never used before. -/
theorem fresh_ticket (h : Run log s) (hk : (tickets log).length < UInt64.size) {id n : UInt64}
    (hprobe : probe s.batches s.nextBatchId UInt64.size = some (id, n)) : id ∉ tickets log := by
  obtain ⟨hlog, hinv⟩ := run_ticketInv h hk.le
  rw [show UInt64.size = (UInt64.size - 1) + 1 from rfl, hinv.probe hk] at hprobe
  cases hprobe
  have hnd := nodup_range_ofNat (k := (tickets log).length + 1) hk
  rw [List.range_succ, List.map_append, List.nodup_append] at hnd
  intro hmem
  exact hnd.2.2 (hlog ▸ hmem) (List.mem_singleton_self _)

theorem injectOf_eq_none {t : UInt64} (h : t ∉ tickets log) : injectOf log t = none := by
  rcases hi : injectOf log t with _ | r
  · rfl
  · exact absurd (mem_tickets_of_injectOf hi) h

theorem Routed.inject {id : UInt64} (h : Routed log s) (hfresh : id ∉ tickets log) (request : Request) (u : T)
    (n : UInt64) :
    Routed (log ++ [.inject request u id]) (s.store id n request u) := by
  refine ⟨fun t => ?_, h.lookup_append fun _ _ => by simp⟩
  simp only [injectOf_append, eventsAt_append, answersAt_append, userParamAt_append, Op.injected?,
    Op.event?, Op.answer?, Op.param?, Option.toList_none, List.append_nil, eventsOf, List.filterMap_nil,
    store_get?]
  by_cases ht : t = id
  · subst ht
    have := h.slot t
    rw [injectOf_eq_none hfresh] at this
    simpa using this.inject request u
  · simpa [Ne.symm ht, ht] using h.slot t

theorem Routed.nextEvent (h : Routed log s) {order : List UInt64}
    {event : Option (UInt64 × BatchesEvent T)} {s' : BatchesState T}
    (horder : order.Perm s.batches.keys) (hnext : nextEventFrom order s = .ok (event, s')) :
    Routed (log ++ [.nextEvent order event]) s' := by
  refine ⟨fun t => ?_, h.lookup_append fun _ _ => by simp⟩
  simp only [injectOf_append, eventsAt_append, answersAt_append, userParamAt_append, Op.injected?,
    Op.event?, Op.answer?, Op.param?, Option.toList_none, List.append_nil, Option.none_or]
  have hs := h.slot t
  rcases nextEventFrom_at horder hnext t with
    ⟨hev, hsame | ⟨b, u, hb, hsil, hnone⟩⟩ | ⟨b, u, e, hb, hev, he, hget⟩
  · rwa [hev, List.append_nil, hsame]
  · rw [hb] at hs
    rw [hev, List.append_nil, hnone]
    exact hs.drop hsil
  · rw [hb] at hs
    rw [hev, hget]
    exact hs.work he

theorem Routed.requestById (h : Routed log s) (id : BatchesElemId) :
    Routed (log ++ [.requestById id (s.requestById id)]) s := by
  refine ⟨fun t => ?_, fun i elem hmem => ?_⟩
  · simpa [injectOf_append, eventsAt_append, answersAt_append, userParamAt_append, Op.injected?,
      Op.event?, Op.answer?, Op.param?, eventsOf] using h.slot t
  · rw [eventsAt_append]
    simp only [Op.event?, Option.toList, eventsOf, List.filterMap_nil, List.append_nil]
    rcases List.mem_append.mp hmem with hmem | hmem
    · exact h.lookup i elem hmem
    · obtain ⟨rfl, hq⟩ := Op.requestById.inj (List.mem_singleton.mp hmem)
      obtain ⟨b, u, hb, hbid, hinner⟩ := requestById_eq_some.mp hq.symm
      have hs := h.slot i.outer
      rw [hb] at hs
      have hidx := (BatchState.requestById_eq_some.mp hinner).2.1
      refine ⟨?_, by simp [BatchesElem.id, BatchElem.id, hbid, hidx]⟩
      rw [show elem = ⟨i.outer, elem.inner⟩ by rw [← hbid]]
      exact hs.mem_of_requestById hinner

theorem Routed.setResponse (h : Routed log s) {id : BatchesElemId} {elem : BatchesElem}
    (hq : s.requestById id = some elem) (response : Except Error JsonValue) :
    Routed (log ++ [.setResponse id response]) (s.setResponse elem response) := by
  refine ⟨fun t => ?_, h.lookup_append fun _ _ => by simp⟩
  obtain ⟨b, u, hb, hbid, hinner⟩ := requestById_eq_some.mp hq
  have hidx := (BatchState.requestById_eq_some.mp hinner).2.1
  simp only [injectOf_append, eventsAt_append, answersAt_append, userParamAt_append, Op.injected?,
    Op.event?, Op.answer?, Op.param?, Option.toList_none, List.append_nil, Option.none_or, eventsOf,
    List.filterMap_nil, BatchesState.setResponse, Table.get?_modify, hbid]
  by_cases ht : t = id.outer
  · subst ht
    have hs := h.slot id.outer
    rw [hb] at hs
    simpa [hb, hidx] using hs.answer hinner response
  · simpa [ht, Ne.symm ht] using h.slot t

theorem Routed.setUserParam (h : Routed log s) {ticket : UInt64} (hmem : ticket ∈ s.batches.keys)
    (value : T) : Routed (log ++ [.setUserParam ticket value]) (s.setUserParam ticket value) := by
  refine ⟨fun t => ?_, h.lookup_append fun _ _ => by simp⟩
  obtain ⟨b, u, hb⟩ := exists_get?_of_mem_keys hmem
  simp only [injectOf_append, eventsAt_append, answersAt_append, userParamAt_append, Op.injected?,
    Op.event?, Op.answer?, Op.param?, Option.toList_none, List.append_nil, Option.none_or, eventsOf,
    List.filterMap_nil, BatchesState.setUserParam, Table.get?_modify]
  by_cases ht : t = ticket
  · subst ht
    have hs := h.slot t
    rw [hb] at hs
    simpa [hb] using hs.write value
  · simpa [ht, Ne.symm ht] using h.slot t

end Steps

/-- **The run invariant.**  Along every run with at most `2^64` injects, every ticket is as `Slot`
says and every handle `request_by_id` gave back was handed out by a `Request` event. -/
theorem run_routed {log : List (Op T)} {s : BatchesState T} (h : Run log s)
    (hk : (tickets log).length ≤ UInt64.size) : Routed log s := by
  induction h with
  | new => exact routed_new
  | @inject log s request u id n hrun hprobe ih =>
    simp only [tickets_append, Op.ticket?, Option.toList, List.length_append,
      List.length_singleton] at hk
    exact (ih (by omega)).inject (fresh_ticket hrun (by omega) hprobe) request u n
  | nextEvent _ horder hnext ih =>
    simp only [tickets_append, Op.ticket?, Option.toList, List.append_nil] at hk
    exact (ih hk).nextEvent horder hnext
  | requestById id _ ih =>
    simp only [tickets_append, Op.ticket?, Option.toList, List.append_nil] at hk
    exact (ih hk).requestById id
  | setResponse response _ hq ih =>
    simp only [tickets_append, Op.ticket?, Option.toList, List.append_nil] at hk
    exact (ih hk).setResponse hq response
  | setUserParam value _ hmem ih =>
    simp only [tickets_append, Op.ticket?, Option.toList, List.append_nil] at hk
    exact (ih hk).setUserParam hmem value

theorem mem_eventsOf {t : UInt64} {e : BatchesEvent T} {es : List (UInt64 × BatchesEvent T)} :
    e ∈ eventsOf t es ↔ (t, e) ∈ es := by
  simp only [eventsOf, List.mem_filterMap]
  constructor
  · rintro ⟨⟨t', e'⟩, hmem, he⟩
    split_ifs at he with ht
    cases he
    cases ht
    exact hmem
  · exact fun h => ⟨(t, e), h, if_pos rfl⟩

theorem answered_iff {log : List (Op T)} {i : BatchesElemId} :
    Answered log i ↔ i.inner ∈ (answersAt log i.outer).map Prod.fst := by
  simp only [Answered, answersAt, List.mem_map, List.mem_filterMap]
  constructor
  · rintro ⟨r, hr⟩
    exact ⟨(i.inner, r), ⟨_, hr, if_pos rfl⟩, rfl⟩
  · rintro ⟨⟨j, r⟩, ⟨op, hop, hans⟩, rfl⟩
    cases op with
    | setResponse id response =>
      simp only [Op.answer?] at hans
      split_ifs at hans with ht
      obtain ⟨hin, rfl⟩ := Prod.mk.inj (Option.some.inj hans)
      obtain rfl : id = i := by cases id; cases i; simp_all
      exact ⟨_, hop⟩
    | _ => simp [Op.answer?] at hans

/-! ### Request ids, events and the life of a batch -/

/-- An issued element is an event of its own ticket, and carries its id. -/
theorem Routed.issued {log : List (Op T)} {s : BatchesState T} (hR : Routed log s)
    {i : BatchesElemId} {elem : BatchesElem} (hi : Issued log i elem) :
    .request elem ∈ eventsAt log i.outer ∧ elem.id = i := by
  rcases hi with ⟨⟨order, t, hop⟩, hid⟩ | hop
  · have he : .request elem ∈ eventsAt log t :=
      mem_eventsOf.mpr (List.mem_filterMap.mpr ⟨_, hop, rfl⟩)
    have ht : i.outer = t := by rw [← hid, ← ((hR.slot t).lookup he).1]; rfl
    exact ⟨ht ▸ he, hid⟩
  · exact hR.lookup i elem hop

/-- **Request ids resolve until answered, and never after.**  In a run with at most `2^64`
injects, a request id `i` issued for `elem` (by a `Request` event or by `request_by_id`) gives
back `elem` itself, with id `i` and the same request, as long as no `set_response` was made on a
handle with id `i`; once one was, it gives back nothing, also after the batch has retired and
other batches have been injected. -/
theorem run_requestById {log : List (Op T)} {s : BatchesState T} (h : Run log s)
    (hk : (tickets log).length ≤ UInt64.size) {i : BatchesElemId} {elem : BatchesElem}
    (hi : Issued log i elem) :
    (¬ Answered log i → s.requestById i = some elem ∧ elem.id = i) ∧
      (Answered log i → s.requestById i = none) := by
  have hR := run_routed h hk
  obtain ⟨he, hid⟩ := hR.issued hi
  have hidx : elem.inner.index = i.inner := by rw [← hid]; rfl
  obtain ⟨hb, ⟨b, u, hget, hq⟩ | ⟨hnone, hans⟩⟩ := (hR.slot i.outer).lookup he
  · have hreq : s.requestById i = (b.requestById i.inner).map (⟨i.outer, ·⟩) := by
      simp only [requestById, hget]
    rw [hidx] at hq
    refine ⟨fun hna => ⟨?_, hid⟩, fun ha => ?_⟩
    · rw [hreq, hq, if_neg (mt answered_iff.mpr hna), ← hb]
      rfl
    · rw [hreq, hq, if_pos (answered_iff.mp ha)]
      rfl
  · rw [hidx] at hans
    exact ⟨fun hna => absurd (answered_iff.mpr hans) hna, fun _ => by simp only [requestById, hnone]⟩

/-- **Every event goes with its own message.**  In a run with at most `2^64` injects, an event
from the ticket `t` belongs to the one message injected under `t`: a notification of it with a
`&mut T` into the entry of `t`, or a request of it at its own index with the handle of `t`, or
the response that the message's own batch gives on its own, once every call is out and it has
received exactly the answers given on handles that carry `t`, with the value last left in the
entry of `t`.  While the entry is open it holds that message's own batch, and the value the
`inject` stored or the last write into it. -/
theorem run_routes_events {log : List (Op T)} {s : BatchesState T} (h : Run log s)
    (hk : (tickets log).length ≤ UInt64.size) {t : UInt64} {e : BatchesEvent T}
    (he : (t, e) ∈ events log) :
    ∃ request, injectOf log t = some request ∧ (tickets log).count t = 1 ∧
      (∀ b u, s.batches.get? t = some (b, u) →
        b = BatchState.replay request b.cursor (answersAt log t) ∧ userParamAt log t = some u) ∧
      ((∃ (j : Nat) (n : Notification), request.calls[j]? = some (.notification n) ∧
          e = .notification n t) ∨
        (∃ (j : Nat) (c : MethodCall), request.calls[j]? = some (.methodCall c) ∧
          e = .request ⟨t, ⟨j, c⟩⟩) ∨
        (∃ r u, e = .readyToSend r u ∧ userParamAt log t = some u ∧ s.batches.get? t = none ∧
          (BatchState.replay request request.calls.length (answersAt log t)).intoResponse =
            .ok (some r))) := by
  have hR := run_routed h hk
  obtain ⟨request, hM, hcases⟩ := (hR.slot t).event_cases (mem_eventsOf.mpr he)
  refine ⟨request, hM, List.count_eq_one_of_mem (run_tickets_nodup h hk)
    (mem_tickets_of_injectOf hM), fun b u hb => ?_, ?_⟩
  · have hs := hR.slot t
    rw [hb] at hs
    obtain ⟨request', hr', hb', hp⟩ := hs.live_eq
    rw [hM] at hr'
    cases hr'
    exact ⟨hb', hp⟩
  · rcases hcases with ⟨j, c, hc, rfl⟩ | hready
    · cases c with
      | notification n => exact .inl ⟨j, n, hc, rfl⟩
      | methodCall c => exact .inr (.inl ⟨j, c, hc, rfl⟩)
    · exact .inr (.inr hready)

/-- **The life of one message's batch.**  In a run with at most `2^64` injects, the events from
the ticket of a message with calls `c₀, …, cₙ₋₁` are `c₀, …, cₖ₋₁` handed out in this order for
some `k ≤ n`, then at most one `ReadyToSend`, which comes only as the batch leaves; and the batch
leaves the map only once `k = n` and every request of the message has been answered exactly once
through `set_response`. -/
theorem run_batch_lifecycle {log : List (Op T)} {s : BatchesState T} (h : Run log s)
    (hk : (tickets log).length ≤ UInt64.size) {t : UInt64} {request : Request}
    (hM : injectOf log t = some request) :
    ∃ k ≤ request.calls.length, ∃ tail, eventsAt log t = handouts t request k ++ tail ∧
      tail.length ≤ 1 ∧ (∀ e ∈ tail, ∃ r u, e = .readyToSend r u) ∧
      (tail ≠ [] → s.batches.get? t = none) ∧
      (s.batches.get? t = none → k = request.calls.length ∧
        ((answersAt log t).map Prod.fst).Perm request.requestIndices) := by
  have hs := (run_routed h hk).slot t
  rw [hM] at hs
  exact hs.lifecycle

/-! ### The run with two batches and an answer -/

theorem events_pair : events pairLog = [(0, .request pingElem), (1, .notification tick 1),
    (0, .readyToSend pingResponse ()), (1, .request ⟨1, ⟨1, pongCall⟩⟩)] := rfl

/-- `ping` was handed out, then answered; its batch has since retired. -/
theorem run_requestById_pair :
    Run pairLog pairState ∧ (tickets pairLog).length ≤ UInt64.size ∧
      Issued pairLog ⟨0, 0⟩ pingElem ∧
      (¬ Answered pairLog ⟨0, 0⟩ →
          pairState.requestById ⟨0, 0⟩ = some pingElem ∧ pingElem.id = ⟨0, 0⟩) ∧
        (Answered pairLog ⟨0, 0⟩ → pairState.requestById ⟨0, 0⟩ = none) :=
  have issued : Issued pairLog ⟨0, 0⟩ pingElem := .inr (by simp [pairLog])
  ⟨run_pair, tickets_pair, issued, run_requestById run_pair tickets_pair issued⟩

/-- The response `ping`'s batch sent. -/
theorem run_routes_events_pair :
    Run pairLog pairState ∧ (tickets pairLog).length ≤ UInt64.size ∧
      ((0 : UInt64), BatchesEvent.readyToSend pingResponse ()) ∈ events pairLog ∧
      ∃ request, injectOf pairLog 0 = some request ∧ (tickets pairLog).count 0 = 1 ∧
        (∀ b u, pairState.batches.get? 0 = some (b, u) →
          b = BatchState.replay request b.cursor (answersAt pairLog 0) ∧
            userParamAt pairLog 0 = some u) ∧
        ((∃ (j : Nat) (n : Notification), request.calls[j]? = some (.notification n) ∧
            BatchesEvent.readyToSend pingResponse () = .notification n 0) ∨
          (∃ (j : Nat) (c : MethodCall), request.calls[j]? = some (.methodCall c) ∧
            BatchesEvent.readyToSend pingResponse () = .request ⟨0, ⟨j, c⟩⟩) ∨
          (∃ r u, BatchesEvent.readyToSend pingResponse () = .readyToSend r u ∧
            userParamAt pairLog 0 = some u ∧ pairState.batches.get? 0 = none ∧
            (BatchState.replay request request.calls.length (answersAt pairLog 0)).intoResponse =
              .ok (some r))) :=
  have sent : ((0 : UInt64), BatchesEvent.readyToSend pingResponse ()) ∈ events pairLog := by
    simp [events_pair]
  ⟨run_pair, tickets_pair, sent, run_routes_events run_pair tickets_pair sent⟩

/-- The whole life of `ping`'s batch. -/
theorem run_batch_lifecycle_pair :
    Run pairLog pairState ∧ (tickets pairLog).length ≤ UInt64.size ∧
      injectOf pairLog 0 = some pingRequest ∧
      ∃ k ≤ pingRequest.calls.length, ∃ tail, eventsAt pairLog 0 = handouts 0 pingRequest k ++ tail ∧
        tail.length ≤ 1 ∧ (∀ e ∈ tail, ∃ r u, e = .readyToSend r u) ∧
        (tail ≠ [] → pairState.batches.get? 0 = none) ∧
        (pairState.batches.get? 0 = none → k = pingRequest.calls.length ∧
          ((answersAt pairLog 0).map Prod.fst).Perm pingRequest.requestIndices) :=
  have injected : injectOf pairLog 0 = some pingRequest := rfl
  ⟨run_pair, tickets_pair, injected, run_batch_lifecycle run_pair tickets_pair injected⟩

end BatchesState

end Plibra
