import Plibra.Batch
import Plibra.Table

/-!
# Plibra.Batches.Basic — the registry of open batches (`BatchesState`)

`BatchesState<T>` of `batches.rs`: the counter `next_batch_id` and the map from tickets to
`(BatchState, T)`, with `new`, `inject`, `request_by_id`, `batches` and the handle
`BatchesElem`.  A `&mut T` handed to the host (in a `Notification` event, through
`BatchesElem::user_param`, or from `batches()`) points into the entry of one ticket and is
modelled as that ticket; a write through it is `setUserParam`.  The probe loop of `inject` is
`probe`, run with one round per value of a `u64`: it cannot meet a vacant ticket later than
that, so `none` is the loop that never ends.
-/

namespace Plibra

/-- `BatchesElemId`: the ticket of the batch and the index of the request within it. -/
structure BatchesElemId where
  outer : UInt64
  inner : Nat
  deriving DecidableEq

/-- A request within the batches (`BatchesElem`): the ticket of its batch and the handle within
that batch. -/
structure BatchesElem where
  batchId : UInt64
  inner : BatchElem

namespace BatchesElem

/-- `BatchesElem::id` (not the id the client sent). -/
def id (e : BatchesElem) : BatchesElemId := ⟨e.batchId, e.inner.id⟩

/-- `BatchesElem::user_param`: the entry of the request's batch. -/
def userParam (e : BatchesElem) : UInt64 := e.batchId

/-- `BatchesElem::request_id`: the id the client sent. -/
def requestId (e : BatchesElem) : Id := e.inner.requestId

/-- `BatchesElem::method`. -/
def method (e : BatchesElem) : String := e.inner.method

/-- `BatchesElem::params`. -/
def params (e : BatchesElem) : Params := e.inner.params

end BatchesElem

/-- `BatchesEvent`.  A `&mut T` is the ticket of the entry it points into; the `T` of
`ReadyToSend` is handed over by value. -/
inductive BatchesEvent (T : Type) where
  | notification (notification : Notification) (userParam : UInt64)
  | request (elem : BatchesElem)
  | readyToSend (response : Response) (userParam : T)

/-- `BatchesState<T>`: the next ticket to try and the open batches with their user parameters. -/
structure BatchesState (T : Type) where
  nextBatchId : UInt64
  batches : Table (BatchState × T)

namespace BatchesState

variable {T : Type}

/-- `BatchesState::new`. -/
def new : BatchesState T := ⟨0, Table.empty⟩

/-- The probe loop of `inject`, for at most `fuel` rounds from ticket `id`: the ticket the batch
is stored under and the new `next_batch_id`, or `none` if every round met an occupied ticket. -/
def probe (batches : Table (BatchState × T)) (id : UInt64) : Nat → Option (UInt64 × UInt64)
  | 0 => none
  | fuel + 1 => if batches.contains id then probe batches (id + 1) fuel else some (id, id + 1)

/-- The state once the probe loop has stored the batch of `request` under `id`. -/
def store (s : BatchesState T) (id nextBatchId : UInt64) (request : Request) (userParam : T) :
    BatchesState T :=
  ⟨nextBatchId, s.batches.insert id (BatchState.fromRequest request, userParam)⟩

/-- `BatchesState::inject`; `none` when the probe loop never meets a vacant ticket. -/
def inject (s : BatchesState T) (request : Request) (userParam : T) : Option (BatchesState T) :=
  (probe s.batches s.nextBatchId UInt64.size).map fun (id, nextBatchId) =>
    s.store id nextBatchId request userParam

/-- `BatchesState::request_by_id`. -/
def requestById (s : BatchesState T) (id : BatchesElemId) : Option BatchesElem :=
  match s.batches.get? id.outer with
  | some (batch, _) => (batch.requestById id.inner).map (⟨id.outer, ·⟩)
  | none => none

/-- `BatchesElem::set_response` on a handle `elem` borrowed from `s`. -/
def setResponse (s : BatchesState T) (elem : BatchesElem) (response : Except Error JsonValue) :
    BatchesState T :=
  { s with
    batches := s.batches.modify elem.batchId fun (batch, userParam) =>
      (batch.setResponse elem.inner.index response, userParam) }

/-- A write of `value` through a `&mut T` into the entry of `ticket`. -/
def setUserParam (s : BatchesState T) (ticket : UInt64) (value : T) : BatchesState T :=
  { s with batches := s.batches.modify ticket fun (batch, _) => (batch, value) }

/-- `BatchesState::batches`: a `&mut T` into every open batch. -/
def userParams (s : BatchesState T) : List UInt64 := s.batches.keys

/-! ### Equations -/

@[simp] theorem new_nextBatchId : (new : BatchesState T).nextBatchId = 0 := rfl

@[simp] theorem new_batches : (new : BatchesState T).batches = Table.empty := rfl

@[simp] theorem store_nextBatchId (s : BatchesState T) (id n : UInt64) (r : Request) (u : T) :
    (s.store id n r u).nextBatchId = n := rfl

@[simp] theorem store_batches (s : BatchesState T) (id n : UInt64) (r : Request) (u : T) :
    (s.store id n r u).batches = s.batches.insert id (BatchState.fromRequest r, u) := rfl

@[simp] theorem setResponse_nextBatchId (s : BatchesState T) (e : BatchesElem) (r) :
    (s.setResponse e r).nextBatchId = s.nextBatchId := rfl

@[simp] theorem setUserParam_nextBatchId (s : BatchesState T) (t : UInt64) (v : T) :
    (s.setUserParam t v).nextBatchId = s.nextBatchId := rfl

theorem probe_zero (m : Table (BatchState × T)) (id : UInt64) : probe m id 0 = none := rfl

theorem probe_succ (m : Table (BatchState × T)) (id : UInt64) (fuel : Nat) :
    probe m id (fuel + 1) = if m.contains id then probe m (id + 1) fuel else some (id, id + 1) :=
  rfl

theorem inject_eq_some {s s' : BatchesState T} {r : Request} {u : T} :
    s.inject r u = some s' ↔
      ∃ id n, probe s.batches s.nextBatchId UInt64.size = some (id, n) ∧ s' = s.store id n r u := by
  simp only [inject, Option.map_eq_some', Prod.exists]
  exact ⟨fun ⟨a, b, h, e⟩ => ⟨a, b, h, e.symm⟩, fun ⟨a, b, h, e⟩ => ⟨a, b, h, e.symm⟩⟩

theorem requestById_eq_some {s : BatchesState T} {id : BatchesElemId} {e : BatchesElem} :
    s.requestById id = some e ↔
      ∃ b u, s.batches.get? id.outer = some (b, u) ∧ e.batchId = id.outer ∧
        b.requestById id.inner = some e.inner := by
  unfold requestById
  split <;> rename_i heq
  · simp only [heq, Option.some.injEq, Prod.mk.injEq, Option.map_eq_some', exists_and_right,
      exists_eq_right', exists_eq_left']
    constructor
    · rintro ⟨a, ha, rfl⟩; exact ⟨rfl, ha⟩
    · rintro ⟨h1, h2⟩; exact ⟨e.inner, h2, by cases e; simp_all⟩
  · simp [heq]

/-! ### A registry with work of each kind -/

/-- A method call `echo` with id `7`. -/
def echoCall : MethodCall := ⟨"echo", .none, .num 7⟩

/-- A notification `tick`. -/
def tick : Notification := ⟨"tick", .none⟩

/-- The batch of `echo`, its call still to hand out. -/
def echoPending : BatchState := BatchState.fromRequest (.single (.methodCall echoCall))

/-- The batch of `tick` alone, handed out: ready, with nothing to send. -/
def tickSilent : BatchState := (BatchState.fromRequest (.batch [.notification tick])).next.2

/-- The batch of `echo`, handed out and answered with `null`: ready, with its response. -/
def echoReady : BatchState := echoPending.next.2.setResponse 0 (.ok .null)

/-- A registry with a batch of each kind — pending under `0`, silent under `1`, ready under `2` —
and its counter at the occupied ticket `1`. -/
def busy : BatchesState Unit :=
  ⟨1, ((Table.empty.insert 0 (echoPending, ())).insert 1 (tickSilent, ())).insert 2 (echoReady, ())⟩

end BatchesState

end Plibra
