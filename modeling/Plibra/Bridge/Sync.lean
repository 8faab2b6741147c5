import Plibra.Bridge.Types

/-!
# Plibra.Bridge.Sync — the sync loop of `main.rs`

The functions of `DiemBridge`, in the order they call each other, over `BridgeM`: `request_rpc`
and `PRuntimeClient::query` take the answer of the world, `unwrap` and `expect` panic, and a
`Result` of the source is an `Except Error` value.  `verify_and_ratchet` checks signatures; the
model takes it as the parameter `ratchet`.  The loops over new events and transactions are the
recursive `syncNewEvents` and `syncTransactions`, and the endless loop of `bridge` is cut after
`n` rounds.
-/

namespace Plibra

namespace Bridge

/-- The panic of `unwrap` on `None` or `Err`. -/
def unwrapFailed : String := "called unwrap() on a failed value"

/-- `expect`: the value, or a panic with `msg`. -/
def expect {α : Type} (msg : String) : Option α → BridgeM α
  | some a => pure a
  | none => throw msg

/-- `unwrap`: the value, or a panic. -/
def unwrap {α : Type} : Option α → BridgeM α :=
  expect unwrapFailed

/-- `DiemBridge::request_rpc`: the node's answer; `Err(FailedToGetResponse)` when the call
fails. -/
def requestRpc (request : RpcRequest) : BridgeM (Except Error RpcReply) := fun env =>
  let answer := env.rpc env.asked request
  let env := { env with asked := env.asked ++ [request] }
  match answer with
  | some reply => .ok (.ok reply, env)
  | none => .ok (.error .failedToGetResponse, env)

/-- `PRuntimeClient::query` on the Diem contract: pRuntime's answer. -/
def query (req : QueryReqData) : BridgeM (Except Error QueryRespData) := fun env =>
  match env.pruntime env.sent req with
  | some resp => .ok (.ok resp, { env with sent := env.sent ++ [(req, true)] })
  | none => .ok (.error .query, { env with sent := env.sent ++ [(req, false)] })

/-- A write to the fields of the bridge. -/
def update (f : DiemBridge → DiemBridge) : BridgeM Unit :=
  modify fun env => { env with bridge := f env.bridge }

/-- `DiemBridge::get_transaction_by_version`. -/
def getTransactionByVersion (version : UInt64) : BridgeM (Except Error TransactionView) := do
  match ← requestRpc (.getTransactions version 1 false) with
  | .error _ => return .error .failedToGetTransaction
  | .ok resp =>
    match ← unwrap resp.transactions? with
    | [] => return .error .noTransaction
    | transaction :: _ => return .ok transaction

/-- `DiemBridge::get_transaction_proof` (the result of `AccountStateProof::verify`, which reads
`latest_li`, is dropped). -/
def getTransactionProof (transaction : TransactionView) :
    BridgeM (Except Error TransactionWithProof) := do
  let account ← unwrap (← get).bridge.account
  let trusted ← unwrap (← get).bridge.trustedState
  match ← requestRpc (.getAccountStateWithProof account.address transaction.version
      trusted.latestVersion) with
  | .error _ => return .error .failedToGetResponse
  | .ok resp =>
    let accountStateProof ← unwrap resp.accountStateWithProof?
    let accountStateBlob ← unwrap accountStateProof.blob
    if accountStateProof.transactionInfoHash ≠ transaction.hash then
      return .error .badTransactionHash
    let latestLi ← unwrap (← get).bridge.latestLi
    let transactionBytes ← unwrap transaction.bytes
    let epochChangeProof ← unwrap (← get).bridge.epochChangeProof
    return .ok ⟨transactionBytes, epochChangeProof, latestLi,
      accountStateProof.transactionInfoHash, accountStateBlob, transaction.version⟩

/-- `DiemBridge::sync_transaction_with_proof`: a transaction whose proof cannot be had is passed
over with `Ok`. -/
def syncTransactionWithProof (transaction : TransactionView) (accountAddress : String) :
    BridgeM (Except Error Unit) := do
  match ← getTransactionProof transaction with
  | .error _ => return .ok ()
  | .ok transactionWithProof =>
    match ← query (.verifyTransaction accountAddress transactionWithProof) with
    | .error e => return .error e
    | .ok _ => return .ok ()

/-- The loop of `sync_receiving_transactions` over its new events. -/
def syncNewEvents (accountAddress : String) : List EventView → BridgeM (Except Error Unit)
  | [] => return .ok ()
  | event :: rest => do
    match ← getTransactionByVersion event.transactionVersion with
    | .error _ => syncNewEvents accountAddress rest
    | .ok transaction =>
      match ← syncTransactionWithProof transaction accountAddress with
      | .error e => return .error e
      | .ok () => syncNewEvents accountAddress rest

/-- The loop of `sync_sent_transactions` over the transactions it has to sync. -/
def syncTransactions (accountAddress : String) : List TransactionView → BridgeM (Except Error Unit)
  | [] => return .ok ()
  | transaction :: rest => do
    match ← syncTransactionWithProof transaction accountAddress with
    | .error e => return .error e
    | .ok () => syncTransactions accountAddress rest

/-- Whether `self.received_events` holds an event of the same transaction. -/
def knownEvent (known : Option (List EventView)) (event : EventView) : Bool :=
  known.isSome && (known.getD []).any (·.transactionVersion == event.transactionVersion)

/-- Whether `self.transactions` holds a transaction of the same version. -/
def knownTransaction (known : Option (List TransactionView)) (transaction : TransactionView) :
    Bool :=
  known.isSome && (known.getD []).any (·.version == transaction.version)

section Ratchet

variable (ratchet : TrustedState → LedgerInfo → EpochChangeProof → Except String TrustedStateChange)

/-- `DiemBridge::verify_state_proof`. -/
def verifyStateProof (li : LedgerInfo) (epochChangeProof : EpochChangeProof) :
    BridgeM (Except String Unit) := do
  let trusted ← unwrap (← get).bridge.trustedState
  if li.version < trusted.latestVersion then
    return .error "Got stale ledger_info"
  match ratchet trusted li epochChangeProof with
  | .error e => return .error e
  | .ok (.epoch newState latestEpochChangeLi) =>
    let _ ← expect "no validator set in epoch change ledger info"
      latestEpochChangeLi.nextEpochState
    update fun b => { b with
      trustedState := some newState, latestEpochChangeLi := some latestEpochChangeLi }
  | .ok (.version newState) => update fun b => { b with trustedState := some newState }
  | .ok .noChange => pure ()
  return .ok ()

/-- `DiemBridge::init_state`; `withPr` is whether a pRuntime client is passed (at start-up
only).  The write of `latest_epoch_change_li` before the `unwrap` of `TrustedState::try_from` is
joined to the later writes: a panic ends the program. -/
def initState (withPr : Bool) : BridgeM (Except Error Unit) := do
  match ← requestRpc (.getStateProof 0) with
  | .error _ => return .error .failedToInitState
  | .ok resp =>
    let (epochChangeProof, ledgerInfoWithSignatures) ← unwrap resp.stateProof?
    let zero ← unwrap epochChangeProof.ledgerInfoWithSigs.head?
    let trustedState ← unwrap (TrustedState.tryFrom zero)
    update fun b => { b with
      latestEpochChangeLi := some zero
      trustedState := some trustedState
      latestLi := some ledgerInfoWithSignatures
      epochChangeProof := some epochChangeProof }
    let _ ← verifyStateProof ratchet ledgerInfoWithSignatures epochChangeProof
    if withPr then
      match ← query (.setTrustedState zero) with
      | .ok (.setTrustedState true) => pure ()
      | .ok _ => return .error .failedToInitState
      | .error e => return .error e
    return .ok ()

/-- The loop over what is new, then the write of the whole listing if the loop returned `Ok`. -/
def loopThenRecord (loop : BridgeM (Except Error Unit)) (record : DiemBridge → DiemBridge) :
    BridgeM (Except Error Unit) := do
  match ← loop with
  | .error e => return .error e
  | .ok () =>
    update record
    return .ok ()

/-- The end that `sync_receiving_transactions` and `sync_sent_transactions` share: `init_state`
when there is something new and the state is not initiated, then `loopThenRecord`. -/
def syncAndRecord (needInit : Bool) (loop : BridgeM (Except Error Unit))
    (record : DiemBridge → DiemBridge) : BridgeM (Except Error Unit) := do
  if needInit then
    match ← initState ratchet false with
    | .error _ => return .error .failedToInitState
    | .ok () => pure ()
  loopThenRecord loop record

/-- `DiemBridge::sync_receiving_transactions`. -/
def syncReceivingTransactions (receivedEventsKey : String) (sequenceNumber : UInt64)
    (accountAddress : String) (stateInitiated : Bool) : BridgeM (Except Error Unit) := do
  match ← requestRpc (.getEvents receivedEventsKey 0 sequenceNumber) with
  | .error _ => return .error .failedToGetReceivingTransactions
  | .ok resp =>
    let receivedEvents ← unwrap resp.events?
    let known := (← get).bridge.receivedEvents
    let newEvents := receivedEvents.filter fun event => !knownEvent known event
    syncAndRecord ratchet (newEvents.length > 0 && !stateInitiated)
      (syncNewEvents accountAddress newEvents)
      fun b => { b with receivedEvents := some receivedEvents }

/-- `DiemBridge::sync_sent_transactions`. -/
def syncSentTransactions (accountAddress : String) (stateInitiated : Bool) :
    BridgeM (Except Error Unit) := do
  let account ← unwrap (← get).bridge.account
  match ← requestRpc (.getAccountTransactions account.address 0 account.sequenceNumber false) with
  | .error _ => return .error .failedToGetSentTransactions
  | .ok resp =>
    let transactions ← unwrap resp.transactions?
    let known := (← get).bridge.transactions
    let needSyncTransactions := transactions.filter fun transaction =>
      !knownTransaction known transaction && transaction.transaction == .userTransaction
    syncAndRecord ratchet (needSyncTransactions.length > 0 && !stateInitiated)
      (syncTransactions accountAddress needSyncTransactions)
      fun b => { b with transactions := some transactions }

/-- `DiemBridge::sync_account` for the account at `accountAddress`. -/
def syncAccount (accountAddress : String) : BridgeM (Except Error Unit) := do
  let stateInitiated := false
  match ← requestRpc (.getAccount accountAddress) with
  | .error _ => return .error .failedToGetResponse
  | .ok resp =>
    match ← unwrap resp.account? with
    | none => return .ok ()
    | some view =>
      update fun b => { b with
        account := some ⟨accountAddress, view.authenticationKey, view.sequenceNumber⟩
        sentEventsKey := some view.sentEventsKey
        receivedEventsKey := some view.receivedEventsKey
        balances := some view.balances }
      let accountInfo : AccountInfo := ⟨accountAddress, view.authenticationKey,
        view.sequenceNumber, view.sentEventsKey, view.receivedEventsKey, view.balances⟩
      match ← query (.accountData accountInfo) with
      | .error e => return .error e
      | .ok _ => pure ()
      if view.sequenceNumber > 0 then
        match ← syncReceivingTransactions ratchet view.receivedEventsKey view.sequenceNumber
            accountAddress stateInitiated with
        | .error e => return .error e
        | .ok () => pure ()
      syncSentTransactions ratchet accountAddress stateInitiated

/-- The account the loop syncs (hard-coded in `bridge`). -/
def aliceAddress : String := "0xd4f0c053205ba934bb2ac0c4e8479e77"

/-- `n` rounds of the loop of `bridge`; the result of each `sync_account` is dropped. -/
def syncRounds : Nat → BridgeM Unit
  | 0 => pure ()
  | n + 1 => do
    let _ ← syncAccount ratchet aliceAddress
    syncRounds n

/-- `bridge` for `n` rounds of its loop: `init_state` with pRuntime, then the loop. -/
def bridge (n : Nat) : BridgeM (Except Error Unit) := do
  match ← initState ratchet true with
  | .error e => return .error e
  | .ok () =>
    syncRounds ratchet n
    return .ok ()

end Ratchet

end Bridge

end Plibra
