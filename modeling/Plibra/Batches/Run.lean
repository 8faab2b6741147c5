import Plibra.Batches.NextEvent
import Plibra.Batches.Inject

/-!
# Plibra.Batches.Run — runs of the registry, and the tickets they hand out

A run is what a host does with a `BatchesState` from `BatchesState::new`: `inject`,
`next_event` (with the keys in any order `keys()` may list them), `request_by_id`,
`set_response` on a handle it holds, and writes through a `&mut T`.  The log keeps each call with
what it returned, and two loop variables of the source: the ticket `inject` stored under and the
ticket of the round an event came from.  While at most `2^64` batches have been injected, the
`j`-th inject finds ticket `j` vacant at once (`TicketInv`), so no ticket is handed out twice.
-/

namespace Plibra

/-- One call the host makes on a `BatchesState`, with what it returned. -/
inductive Op (T : Type) where
  | inject (request : Request) (userParam : T) (ticket : UInt64)
  | nextEvent (order : List UInt64) (event : Option (UInt64 × BatchesEvent T))
  | requestById (id : BatchesElemId) (elem : Option BatchesElem)
  | setResponse (id : BatchesElemId) (response : Except Error JsonValue)
  | setUserParam (ticket : UInt64) (value : T)

/-- The ticket an `inject` stored under. -/
def Op.ticket? {T : Type} : Op T → Option UInt64
  | .inject _ _ t => some t
  | _ => none

namespace BatchesState

variable {T : Type}

/-- The runs from `BatchesState::new`: the calls made, oldest first, and the state they leave.
A `set_response` is made on a handle, which the host holds from `request_by_id` or from a
`Request` event; the latter is given back by `request_by_id` as well (`requestById_next`). -/
inductive Run : List (Op T) → BatchesState T → Prop where
  | new : Run [] new
  | inject {log s} (request : Request) (userParam : T) {id n : UInt64} :
      Run log s → probe s.batches s.nextBatchId UInt64.size = some (id, n) →
      Run (log ++ [.inject request userParam id]) (s.store id n request userParam)
  | nextEvent {log s s'} {order : List UInt64} {event : Option (UInt64 × BatchesEvent T)} :
      Run log s → order.Perm s.batches.keys → nextEventFrom order s = .ok (event, s') →
      Run (log ++ [.nextEvent order event]) s'
  | requestById {log s} (id : BatchesElemId) :
      Run log s → Run (log ++ [.requestById id (s.requestById id)]) s
  | setResponse {log s} {id : BatchesElemId} {elem : BatchesElem}
      (response : Except Error JsonValue) :
      Run log s → s.requestById id = some elem →
      Run (log ++ [.setResponse id response]) (s.setResponse elem response)
  | setUserParam {log s} {ticket : UInt64} (value : T) :
      Run log s → ticket ∈ s.batches.keys →
      Run (log ++ [.setUserParam ticket value]) (s.setUserParam ticket value)

/-- The tickets the `inject`s of a log stored under, in order. -/
def tickets (log : List (Op T)) : List UInt64 := log.filterMap Op.ticket?

@[simp] theorem tickets_nil : tickets ([] : List (Op T)) = [] := rfl

theorem tickets_append (log : List (Op T)) (op : Op T) :
    tickets (log ++ [op]) = tickets log ++ op.ticket?.toList := by
  cases h : op.ticket? <;> simp [tickets, h]

/-! ### The ticket discipline -/

/-- After `n < 2^64` injects: the counter is `n` and every open ticket is below `n`. -/
def TicketInv (n : Nat) (s : BatchesState T) : Prop :=
  s.nextBatchId = UInt64.ofNat n ∧ ∀ t ∈ s.batches.keys, t.toNat < n

theorem ticketInv_new : TicketInv 0 (new : BatchesState T) := ⟨rfl, by simp⟩

/-- The counter is vacant, so the next probe stops at its first round. -/
theorem TicketInv.vacant {n : Nat} {s : BatchesState T} (h : TicketInv n s) (hn : n < UInt64.size) :
    s.batches.contains s.nextBatchId = false := by
  rw [Bool.eq_false_iff, ne_eq, Table.contains_iff, h.1]
  intro hmem
  have := h.2 _ hmem
  rw [UInt64.toNat_ofNat_eq, Nat.mod_eq_of_lt hn] at this
  exact Nat.lt_irrefl _ this

theorem TicketInv.probe {n : Nat} {s : BatchesState T} (h : TicketInv n s) (hn : n < UInt64.size)
    (fuel : Nat) :
    probe s.batches s.nextBatchId (fuel + 1) = some (UInt64.ofNat n, UInt64.ofNat (n + 1)) := by
  rw [probe_succ, if_neg (by simp [h.vacant hn]), h.1, UInt64.ofNat_succ]

theorem TicketInv.store {n : Nat} {s : BatchesState T} (h : TicketInv n s) (hn : n < UInt64.size)
    (r : Request) (u : T) :
    TicketInv (n + 1) (s.store (UInt64.ofNat n) (UInt64.ofNat (n + 1)) r u) := by
  refine ⟨rfl, fun t ht => ?_⟩
  obtain ⟨v, hv⟩ := Table.mem_keys.mp ht
  rw [store_get?] at hv
  split_ifs at hv with htn
  · rw [htn, UInt64.toNat_ofNat_eq, Nat.mod_eq_of_lt hn]; exact Nat.lt_succ_self _
  · exact Nat.lt_succ_of_lt (h.2 t (Table.mem_keys.mpr ⟨v, hv⟩))

/-- A state that keeps the counter and opens no ticket keeps the invariant. -/
theorem TicketInv.of_frame {n : Nat} {s s' : BatchesState T} (h : TicketInv n s)
    (hc : s'.nextBatchId = s.nextBatchId)
    (hk : ∀ k, s.batches.get? k = none → s'.batches.get? k = none) : TicketInv n s' := by
  refine ⟨hc.trans h.1, fun t ht => h.2 t ?_⟩
  by_contra hnot
  obtain ⟨v, hv⟩ := Table.mem_keys.mp ht
  rw [hk t (Table.get?_eq_none.mpr hnot)] at hv
  cases hv

theorem modify_frame (m : Table (BatchState × T)) (t : UInt64) (f : BatchState × T → BatchState × T)
    (k : UInt64) (hk : m.get? k = none) : (m.modify t f).get? k = none := by
  rw [Table.get?_modify]
  split_ifs with h
  · rw [← h, hk]; rfl
  · exact hk

/-- One call of a run with fewer than `2^64` injects: the tickets stay `0, 1, …` and the
invariant holds. -/
theorem run_ticketInv {log : List (Op T)} {s : BatchesState T} (h : Run log s)
    (hk : (tickets log).length ≤ UInt64.size) :
    tickets log = (List.range (tickets log).length).map UInt64.ofNat ∧
      TicketInv (tickets log).length s := by
  induction h with
  | new => exact ⟨rfl, ticketInv_new⟩
  | @inject log s r u id n _ hprobe ih =>
    simp only [tickets_append, Op.ticket?, Option.toList, List.length_append,
      List.length_singleton] at hk ⊢
    obtain ⟨hlog, hinv⟩ := ih (by omega)
    have hlt : (tickets log).length < UInt64.size := by omega
    rw [show UInt64.size = (UInt64.size - 1) + 1 from rfl, hinv.probe hlt] at hprobe
    cases hprobe
    refine ⟨?_, hinv.store hlt r u⟩
    rw [List.range_succ, List.map_append, ← hlog]; rfl
  | nextEvent _ horder hnext ih =>
    simp only [tickets_append, Op.ticket?, Option.toList, List.append_nil] at hk ⊢
    obtain ⟨hlog, hinv⟩ := ih hk
    have hfr := nextEventFrom_frame (nodup_of_perm horder) (fun k hk => horder.subset hk) hnext
    exact ⟨hlog, hinv.of_frame hfr.1 hfr.2⟩
  | requestById _ _ ih =>
    simp only [tickets_append, Op.ticket?, Option.toList, List.append_nil] at hk ⊢
    exact ih hk
  | setResponse _ _ _ ih | setUserParam _ _ _ ih =>
    simp only [tickets_append, Op.ticket?, Option.toList, List.append_nil] at hk ⊢
    obtain ⟨hlog, hinv⟩ := ih hk
    exact ⟨hlog, hinv.of_frame rfl (modify_frame _ _ _)⟩

theorem nodup_range_ofNat {k : Nat} (hk : k ≤ UInt64.size) :
    ((List.range k).map UInt64.ofNat).Nodup :=
  (List.nodup_range k).map_on fun i hi j hj h => by
    have := congrArg UInt64.toNat h
    simp only [List.mem_range] at hi hj
    rwa [UInt64.toNat_ofNat_eq, UInt64.toNat_ofNat_eq, Nat.mod_eq_of_lt (by omega),
      Nat.mod_eq_of_lt (by omega)] at this

theorem run_tickets_nodup {log : List (Op T)} {s : BatchesState T} (h : Run log s)
    (hk : (tickets log).length ≤ UInt64.size) : (tickets log).Nodup := by
  obtain ⟨hlog, -⟩ := run_ticketInv h hk
  exact hlog ▸ nodup_range_ofNat (by simpa using hk)

/-- **The ticket discipline.**  In a run with at most `2^64` injects, the `j`-th inject stored
its batch under ticket `j`; the counter is the number of injects mod `2^64` and every open
ticket is below that number; while fewer than `2^64` injects were made the counter is vacant, so
the next inject stores at the first round of its probe loop (`Entry::Occupied` is never met);
and no ticket was handed out twice. -/
theorem run_tickets {log : List (Op T)} {s : BatchesState T} (h : Run log s)
    (hk : (tickets log).length ≤ UInt64.size) :
    tickets log = (List.range (tickets log).length).map UInt64.ofNat ∧
      s.nextBatchId = UInt64.ofNat (tickets log).length ∧
      (∀ t ∈ s.batches.keys, t.toNat < (tickets log).length) ∧
      ((tickets log).length < UInt64.size → s.batches.contains s.nextBatchId = false) ∧
      (tickets log).Nodup := by
  obtain ⟨hlog, hinv⟩ := run_ticketInv h hk
  exact ⟨hlog, hinv.1, hinv.2, hinv.vacant, run_tickets_nodup h hk⟩

/-! ### A run with two batches and an answer -/

/-- A method call `ping` with id `1`. -/
def pingCall : MethodCall := ⟨"ping", .none, .num 1⟩

/-- A message of that one call. -/
def pingRequest : Request := .single (.methodCall pingCall)

/-- The handle on it once handed out under ticket `0`. -/
def pingElem : BatchesElem := ⟨0, ⟨0, pingCall⟩⟩

/-- The response to `ping` answered with `null`. -/
def pingResponse : Response := .single (.success .null (.num 1))

/-- A method call `pong` with id `2`. -/
def pongCall : MethodCall := ⟨"pong", .none, .num 2⟩

/-- A message of the notification `tick`, then the call `pong`. -/
def tickPongRequest : Request := .batch [.notification tick, .methodCall pongCall]

/-- Two messages injected; `ping` handed out, then `tick` from the other ticket; `ping` looked up
and answered with `null`; its response sent; then `pong` handed out. -/
def pairLog : List (Op Unit) :=
  [.inject pingRequest () 0, .inject tickPongRequest () 1,
    .nextEvent [0, 1] (some (0, .request pingElem)),
    .nextEvent [1, 0] (some (1, .notification tick 1)),
    .requestById ⟨0, 0⟩ (some pingElem),
    .setResponse ⟨0, 0⟩ (.ok .null),
    .nextEvent [0, 1] (some (0, .readyToSend pingResponse ())),
    .nextEvent [1] (some (1, .request ⟨1, ⟨1, pongCall⟩⟩))]

/-- The state that run leaves: `ping`'s batch gone, `pong` handed out under `1` and waiting for
its answer, the counter at `2`. -/
def pairState : BatchesState Unit :=
  ⟨2, Table.empty.insert 1 ((BatchState.fromRequest tickPongRequest).next.2.next.2, ())⟩

theorem run_pair : Run pairLog pairState :=
  have injected := @Run.inject Unit [_] _ tickPongRequest () 1 2
    (@Run.inject Unit [] new pingRequest () 0 1 Run.new rfl) rfl
  have pingOut := @Run.nextEvent Unit _ _ _ [0, 1] _ injected (List.Perm.refl _) rfl
  have tickOut := @Run.nextEvent Unit _ _ _ [1, 0] _ pingOut (by decide) rfl
  have answered := @Run.setResponse Unit _ _ ⟨0, 0⟩ pingElem (.ok .null)
    (Run.requestById ⟨0, 0⟩ tickOut) rfl
  have sent := @Run.nextEvent Unit _ _ _ [0, 1] _ answered (List.Perm.refl _) rfl
  @Run.nextEvent Unit _ _ _ [1] _ sent (List.Perm.refl _) rfl

theorem tickets_pair : (tickets pairLog).length ≤ UInt64.size := by decide

theorem run_tickets_pair :
    Run pairLog pairState ∧ (tickets pairLog).length ≤ UInt64.size ∧
    tickets pairLog = (List.range (tickets pairLog).length).map UInt64.ofNat ∧
      pairState.nextBatchId = UInt64.ofNat (tickets pairLog).length ∧
      (∀ t ∈ pairState.batches.keys, t.toNat < (tickets pairLog).length) ∧
      ((tickets pairLog).length < UInt64.size →
        pairState.batches.contains pairState.nextBatchId = false) ∧
      (tickets pairLog).Nodup :=
  ⟨run_pair, tickets_pair, run_tickets run_pair tickets_pair⟩

end BatchesState

end Plibra
