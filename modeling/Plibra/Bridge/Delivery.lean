import Plibra.Bridge.Retry

/-!
# Plibra.Bridge.Delivery — what the bridge records as synced

`sync_receiving_transactions` and `sync_sent_transactions` store the node's whole listing once
their loop returns `Ok`, and later rounds pass over what is stored.  The loops return `Ok` also
when the fetch of a transaction or of its proof failed; only a failed pRuntime query stops them.
So the bridge can record as synced a transaction it never delivered (`RecordedOnlyDelivered`
fails): over a node whose fetches fail, a round records the whole listing having sent pRuntime
nothing, and an honest node that fails only the first fetch of each transaction (`flakyNode`)
leaves a payment behind for good.
-/

namespace Plibra

namespace Bridge

/-! ## Definitions -/

/-- Whether pRuntime answered `Ok` to a `VerifyTransaction` query with the proof of the
transaction at version `v`. -/
def delivered (sent : List (QueryReqData × Bool)) (v : UInt64) : Bool :=
  sent.any fun
    | (.verifyTransaction _ proof, true) => proof.version == v
    | _ => false

/-- The transactions the bridge records as synced — the transaction of each stored received
event, and each stored user transaction — were delivered to pRuntime. -/
def RecordedOnlyDelivered (env : Env) : Prop :=
  (∀ event ∈ env.bridge.receivedEvents.getD [], delivered env.sent event.transactionVersion) ∧
    ∀ transaction ∈ env.bridge.transactions.getD [],
      transaction.transaction = .userTransaction → delivered env.sent transaction.version

instance (env : Env) : Decidable (RecordedOnlyDelivered env) :=
  inferInstanceAs (Decidable (_ ∧ _))

/-! ## Steps -/

section Steps

variable {env : Env}
  {ratchet : TrustedState → LedgerInfo → EpochChangeProof → Except String TrustedStateChange}

theorem requestRpc_run_some {request : RpcRequest} {reply : RpcReply}
    (h : env.rpc env.asked request = some reply) :
    (requestRpc request).run env = pure (.ok reply, { env with asked := env.asked ++ [request] }) := by
  simp only [StateT.run, requestRpc, h]; rfl

theorem requestRpc_run_none {request : RpcRequest} (h : env.rpc env.asked request = none) :
    (requestRpc request).run env =
      pure (.error .failedToGetResponse, { env with asked := env.asked ++ [request] }) := by
  simp only [StateT.run, requestRpc, h]; rfl

/-- The requests of the loop over new events that finds no transaction: one
`get_transactions` per event. -/
def fetchesOf (events : List EventView) : List RpcRequest :=
  events.map fun event => .getTransactions event.transactionVersion 1 false

/-- **Failed fetches do not stop the loop**: when the node fails every `get_transactions`, the
loop over new events returns `Ok` having sent nothing to pRuntime and written nothing. -/
theorem syncNewEvents_of_fetches_fail (accountAddress : String) (events : List EventView)
    (env : Env) (h : ∀ before version, env.rpc before (.getTransactions version 1 false) = none) :
    (syncNewEvents accountAddress events).run env =
      .ok (.ok (), { env with asked := env.asked ++ fetchesOf events }) := by
  induction events generalizing env with
  | nil => simp only [fetchesOf, List.map_nil, List.append_nil]; rfl
  | cons event events ih =>
    simp only [syncNewEvents, getTransactionByVersion, StateT.run_bind, requestRpc_run_none (h _ _),
      StateT.run_pure, pure_bind]
    rw [ih]
    · simp only [fetchesOf, List.map_cons, List.append_assoc, List.singleton_append]
    · exact h

theorem syncNewEvents_of_fetches_fail_offline :
    (∀ before version, offline.rpc before (.getTransactions version 1 false) = none) ∧
      (syncNewEvents aliceAddress [⟨5⟩]).run offline =
        .ok (.ok (), { offline with asked := offline.asked ++ fetchesOf [⟨5⟩] }) :=
  have h : ∀ before version, offline.rpc before (.getTransactions version 1 false) = none :=
    fun _ _ => rfl
  ⟨h, syncNewEvents_of_fetches_fail aliceAddress [⟨5⟩] offline h⟩

/-- The loop over new events sends nothing while the node fails every `get_transactions`. -/
theorem syncNewEvents_silent (accountAddress : String) (events : List EventView)
    (fails : ∀ before version, env.rpc before (.getTransactions version 1 false) = none) :
    Ensures (syncNewEvents accountAddress events) (fun _ env' => env'.sent = env.sent) env := by
  induction events generalizing env with
  | nil => simp [syncNewEvents]
  | cons event events ih =>
    simp only [syncNewEvents, getTransactionByVersion, ensures_bind, ensures_requestRpc, fails,
      ensures_pure]
    exact ⟨nofun, fun _ => ih fails⟩

/-- The loop over transactions sends nothing while the node fails every account-state proof. -/
theorem syncTransactions_silent (accountAddress : String) (transactions : List TransactionView)
    (fails : ∀ before address version ledgerVersion,
      env.rpc before (.getAccountStateWithProof address version ledgerVersion) = none) :
    Ensures (syncTransactions accountAddress transactions) (fun _ env' => env'.sent = env.sent)
      env := by
  induction transactions generalizing env with
  | nil => simp [syncTransactions]
  | cons transaction transactions ih =>
    simp only [syncTransactions, syncTransactionWithProof, getTransactionProof, ensures_bind,
      ensures_get, ensures_unwrap, ensures_requestRpc, fails, ensures_pure]
    exact fun _ _ _ _ => ⟨nofun, fun _ => ih fails⟩

/-- The end both sync functions share, around a loop that sends nothing: the listing is written
when it returns `Ok`, and pRuntime has heard nothing. -/
theorem syncAndRecord_silent {needInit : Bool} {loop : BridgeM (Except Error Unit)}
    {record : DiemBridge → DiemBridge}
    (hloop : ∀ {env' : Env}, env'.rpc = env.rpc →
      Ensures loop (fun _ env'' => env''.sent = env'.sent) env') :
    Ensures (syncAndRecord ratchet needInit loop record)
      (fun r env' => r = .ok () → env'.sent = env.sent ∧ ∃ b, env'.bridge = record b) env := by
  have tail : ∀ {env' : Env}, env'.rpc = env.rpc → Ensures (loopThenRecord loop record)
      (fun r env'' => r = .ok () → env''.sent = env'.sent ∧ ∃ b, env''.bridge = record b) env' :=
    fun hrpc => Ensures.bind_of (hloop hrpc) fun r _ hsent => by
      rcases r with _ | ⟨⟩ <;> simp [hsent]
  simp only [syncAndRecord, ensures_bind, ensures_ite]
  split
  · refine ((initState_listing false).and (initState_silent ratchet)).mono ?_
    rintro (_ | ⟨⟨⟩⟩) env₁ ⟨⟨hrpc₁, -⟩, hsent₁⟩
    · simp
    · simp only [ensures_bind, ensures_pure]
      exact (tail hrpc₁).mono fun _ _ h hr => ⟨(h hr).1.trans hsent₁, (h hr).2⟩
  · simpa using tail rfl

/-- **Recorded though not delivered**: over a node that fails every `get_transactions`,
`sync_receiving_transactions` that returns `Ok` leaves in `received_events` every event the node
listed, and has sent pRuntime nothing: none of their transactions was delivered. -/
theorem syncReceivingTransactions_records {key : String} {sequenceNumber : UInt64}
    {accountAddress : String} {stateInitiated : Bool} {env' : Env} {events : List EventView}
    (hrpc : env.rpc env.asked (.getEvents key 0 sequenceNumber) = some (.events events))
    (fails : ∀ before version, env.rpc before (.getTransactions version 1 false) = none)
    (h : (syncReceivingTransactions ratchet key sequenceNumber accountAddress stateInitiated).run
      env = .ok (.ok (), env')) :
    env'.bridge.receivedEvents = some events ∧ env'.sent = env.sent := by
  have records : Ensures (syncReceivingTransactions ratchet key sequenceNumber accountAddress
      stateInitiated) (fun r env' => r = .ok () → env'.sent = env.sent ∧
        ∃ b : DiemBridge, env'.bridge = { b with receivedEvents := some events }) env := by
    simp only [syncReceivingTransactions, ensures_bind, ensures_requestRpc, hrpc, Option.some.injEq,
      forall_eq', RpcReply.events?, ensures_unwrap, ensures_get, Option.some_ne_none,
      false_implies, and_true]
    exact syncAndRecord_silent fun hrpc' => syncNewEvents_silent _ _ (hrpc' ▸ fails)
  obtain ⟨hsent, b, hb⟩ := records _ _ h rfl
  exact ⟨by rw [hb], hsent⟩

/-- **Recorded though not delivered**, for sent transactions: over a node that fails every
account-state proof, `sync_sent_transactions` that returns `Ok` leaves in `transactions` every
transaction the node listed, and has sent pRuntime nothing. -/
theorem syncSentTransactions_records {accountAddress : String} {stateInitiated : Bool}
    {env' : Env} {account : AccountData} {transactions : List TransactionView}
    (hacc : env.bridge.account = some account)
    (hrpc : env.rpc env.asked (.getAccountTransactions account.address 0 account.sequenceNumber false) =
      some (.transactions transactions))
    (fails : ∀ before address version ledgerVersion,
      env.rpc before (.getAccountStateWithProof address version ledgerVersion) = none)
    (h : (syncSentTransactions ratchet accountAddress stateInitiated).run env = .ok (.ok (), env')) :
    env'.bridge.transactions = some transactions ∧ env'.sent = env.sent := by
  have records : Ensures (syncSentTransactions ratchet accountAddress stateInitiated)
      (fun r env' => r = .ok () → env'.sent = env.sent ∧
        ∃ b : DiemBridge, env'.bridge = { b with transactions := some transactions }) env := by
    simp only [syncSentTransactions, ensures_bind, ensures_get, ensures_unwrap, hacc,
      Option.some.injEq, forall_eq', ensures_requestRpc, hrpc, RpcReply.transactions?,
      Option.some_ne_none, false_implies, and_true]
    exact syncAndRecord_silent fun hrpc' => syncTransactions_silent _ _ (hrpc' ▸ fails)
  obtain ⟨hsent, b, hb⟩ := records _ _ h rfl
  exact ⟨by rw [hb], hsent⟩

end Steps

/-! ## Runs that record what they did not deliver -/

section FetchFails

/-- Alice's account, its sequence number `1`, so that its received events are synced. -/
def aliceView : AccountView := ⟨none, 1, "sent", "received", []⟩

/-- The account data of `aliceView` as `sync_account` sends it. -/
def aliceInfo : AccountInfo := ⟨aliceAddress, none, 1, "sent", "received", []⟩

/-- The payment Alice received, at version 5. -/
def payment : TransactionView := ⟨5, .userTransaction, "5a", some [5]⟩

/-- The node's state proof at genesis. -/
def genesisProof : RpcReply := .stateProof ⟨[genesisLedger]⟩ genesisLedger

/-- A node that lists event 5 and the payment as sent by Alice, and fails every fetch of a
transaction and of a proof. -/
def fetchFails : Env :=
  { offline with
    bridge := { DiemBridge.new with account := some ⟨aliceAddress, none, 1⟩ }
    rpc := fun _ request => match request with
      | .getStateProof _ => some genesisProof
      | .getEvents .. => some (.events [⟨5⟩])
      | .getAccountTransactions .. => some (.transactions [payment])
      | _ => none }

theorem syncReceivingTransactions_records_fetchFails :
    fetchFails.rpc fetchFails.asked (.getEvents "received" 0 1) = some (.events [⟨5⟩]) ∧
      (∀ before version, fetchFails.rpc before (.getTransactions version 1 false) = none) ∧
      ∃ env', (syncReceivingTransactions noChange "received" 1 aliceAddress false).run fetchFails =
        .ok (.ok (), env') ∧ env'.bridge.receivedEvents = some [⟨5⟩] ∧ env'.sent = fetchFails.sent :=
  have hrpc : fetchFails.rpc fetchFails.asked (.getEvents "received" 0 1) =
      some (.events [⟨5⟩]) := rfl
  have fails : ∀ before version, fetchFails.rpc before (.getTransactions version 1 false) = none :=
    fun _ _ => rfl
  have h : (syncReceivingTransactions noChange "received" 1 aliceAddress false).run fetchFails =
      .ok (.ok (), { fetchFails with
        bridge := { fetchFails.bridge with
          epochChangeProof := some ⟨[genesisLedger]⟩, trustedState := some ⟨0, ⟨1⟩⟩,
          latestEpochChangeLi := some genesisLedger, latestLi := some genesisLedger,
          receivedEvents := some [⟨5⟩] }
        asked := [.getEvents "received" 0 1, .getStateProof 0, .getTransactions 5 1 false] }) := rfl
  ⟨hrpc, fails, _, h, syncReceivingTransactions_records hrpc fails h⟩

theorem syncSentTransactions_records_fetchFails :
    fetchFails.bridge.account = some ⟨aliceAddress, none, 1⟩ ∧
      fetchFails.rpc fetchFails.asked (.getAccountTransactions aliceAddress 0 1 false) =
        some (.transactions [payment]) ∧
      (∀ before address version ledgerVersion,
        fetchFails.rpc before (.getAccountStateWithProof address version ledgerVersion) = none) ∧
      ∃ env', (syncSentTransactions noChange aliceAddress false).run fetchFails =
        .ok (.ok (), env') ∧ env'.bridge.transactions = some [payment] ∧
        env'.sent = fetchFails.sent :=
  have hacc : fetchFails.bridge.account = some ⟨aliceAddress, none, 1⟩ := rfl
  have hrpc : fetchFails.rpc fetchFails.asked (.getAccountTransactions aliceAddress 0 1 false) =
      some (.transactions [payment]) := rfl
  have fails : ∀ before address version ledgerVersion,
      fetchFails.rpc before (.getAccountStateWithProof address version ledgerVersion) = none :=
    fun _ _ _ _ => rfl
  have h : (syncSentTransactions noChange aliceAddress false).run fetchFails =
      .ok (.ok (), { fetchFails with
        bridge := { fetchFails.bridge with
          epochChangeProof := some ⟨[genesisLedger]⟩, trustedState := some ⟨0, ⟨1⟩⟩,
          latestEpochChangeLi := some genesisLedger, latestLi := some genesisLedger,
          transactions := some [payment] }
        asked := [.getAccountTransactions aliceAddress 0 1 false, .getStateProof 0,
          .getAccountStateWithProof aliceAddress 5 0] }) := rfl
  ⟨hacc, hrpc, fails, _, h, syncSentTransactions_records hacc hrpc fails h⟩

/-- A node that fails the first `get_transactions` of each transaction and answers every later
one. -/
def flakyNode (before : List RpcRequest) : RpcRequest → Option RpcReply
  | .getStateProof _ => some genesisProof
  | .getAccount _ => some (.account (some aliceView))
  | .getEvents .. => some (.events [⟨5⟩])
  | .getAccountTransactions .. => some (.transactions [])
  | .getAccountStateWithProof .. => some (.accountStateWithProof ⟨payment.hash, some [1]⟩)
  | request@(.getTransactions ..) => if request ∈ before then some (.transactions [payment]) else none

/-- Every answer `flakyNode` gives fits its request: it fails calls, it never gives a reply a
decode or an `unwrap` of `main.rs` rejects. -/
theorem flakyNode_honest : Honest flakyNode := by
  intro before request reply h
  cases request <;> simp only [flakyNode, Option.some.injEq] at h
  case getTransactions =>
    split at h
    · cases h; exact ⟨_, rfl, by decide⟩
    · cases h
  all_goals subst h
  case getStateProof => exact ⟨_, _, rfl, rfl⟩
  case getAccountStateWithProof => exact ⟨_, rfl, rfl⟩
  case getAccountTransactions => exact ⟨_, rfl, by decide⟩
  all_goals rfl

/-- The bridge at start-up, over `flakyNode` and `acceptAll`. -/
def fetchFailsOnce : Env :=
  ⟨DiemBridge.new, flakyNode, acceptAll, [], []⟩

/-- Where start-up ends: the genesis trust loaded, and accepted by pRuntime. -/
def fetchFailsOnceStarted : Env :=
  { fetchFailsOnce with
    bridge := { DiemBridge.new with
      epochChangeProof := some ⟨[genesisLedger]⟩, trustedState := some ⟨0, ⟨1⟩⟩,
      latestEpochChangeLi := some genesisLedger, latestLi := some genesisLedger }
    asked := [.getStateProof 0]
    sent := [(.setTrustedState genesisLedger, true)] }

/-- Where the first round ends: the fetch of transaction 5 failed, and event 5 is recorded. -/
def fetchFailsOnceFirst : Env :=
  { fetchFailsOnceStarted with
    bridge := { fetchFailsOnceStarted.bridge with
      sentEventsKey := some "sent", receivedEventsKey := some "received",
      receivedEvents := some [⟨5⟩], transactions := some [],
      account := some ⟨aliceAddress, none, 1⟩, balances := some [] }
    asked := fetchFailsOnceStarted.asked ++
      [.getAccount aliceAddress, .getEvents "received" 0 1, .getStateProof 0,
        .getTransactions 5 1 false, .getAccountTransactions aliceAddress 0 1 false]
    sent := fetchFailsOnceStarted.sent ++ [(.accountData aliceInfo, true)] }

/-- Where the second round ends: the listings asked again, event 5 known, nothing fetched. -/
def fetchFailsOnceEnd : Env :=
  { fetchFailsOnceFirst with
    asked := fetchFailsOnceFirst.asked ++
      [.getAccount aliceAddress, .getEvents "received" 0 1,
        .getAccountTransactions aliceAddress 0 1 false]
    sent := fetchFailsOnceFirst.sent ++ [(.accountData aliceInfo, true)] }

theorem initState_fetchFailsOnce :
    (initState noChange true).run fetchFailsOnce = .ok (.ok (), fetchFailsOnceStarted) :=
  rfl

/-- The first round: `get_transactions` at version 5 fails, and event 5 is recorded. -/
theorem syncAccount_fetchFailsOnceStarted :
    (syncAccount noChange aliceAddress).run fetchFailsOnceStarted =
      .ok (.ok (), fetchFailsOnceFirst) :=
  rfl

/-- The second round: event 5 is known, so version 5 is not asked for again. -/
theorem syncAccount_fetchFailsOnceFirst :
    (syncAccount noChange aliceAddress).run fetchFailsOnceFirst = .ok (.ok (), fetchFailsOnceEnd) :=
  rfl

/-- **A failed fetch is recorded as synced**: over `flakyNode`, whose every answer fits its
request, start-up and two rounds from `fetchFailsOnce` end as `fetchFailsOnceEnd`.  Event 5 is
recorded though its transaction never reached pRuntime, and the second round, where the node
would have answered, does not fetch it again. -/
theorem bridge_records_undelivered :
    Honest fetchFailsOnce.rpc ∧
      (bridge noChange 2).run fetchFailsOnce = .ok (.ok (), fetchFailsOnceEnd) ∧
      ¬ RecordedOnlyDelivered fetchFailsOnceEnd := by
  refine ⟨flakyNode_honest, bridge_run_of_initState initState_fetchFailsOnce ?_, by decide⟩
  calc (syncRounds noChange 2).run fetchFailsOnceStarted
      _ = (syncRounds noChange 1).run fetchFailsOnceFirst :=
        syncRounds_run_succ syncAccount_fetchFailsOnceStarted
      _ = (syncRounds noChange 0).run fetchFailsOnceEnd :=
        syncRounds_run_succ syncAccount_fetchFailsOnceFirst
      _ = .ok ((), fetchFailsOnceEnd) := rfl

end FetchFails

end Bridge

end Plibra
