import Mathlib.Data.List.Dedup

/-!
# Plibra.Bridge.Types — what the pDiem bridge keeps, asks and is told

`main.rs` runs a loop that syncs one Diem account into pRuntime: it asks a Diem node over
JSON-RPC for the account, its received events and its sent transactions, fetches each new
transaction with an account-state proof, and sends the proof to pRuntime in a
`VerifyTransaction` query.  The node and pRuntime are the outside world: each call gets the next
answer of the world, whatever it is.  The views the bridge decodes from the node keep the fields
it reads; the signed ledger data it only carries keep its version and next validator set.
`error.rs` and `types.rs` are not among the sources: `Error` and the query types have the
variants `main.rs` names.
-/

namespace Plibra

namespace Bridge

/-- `crate::error::Error`, the variants `main.rs` names; `query` stands for what a failed
pRuntime query passes on through `?`. -/
inductive Error where
  | failedToInitState
  | failedToGetResponse
  | failedToGetReceivingTransactions
  | failedToGetSentTransactions
  | badTransactionHash
  | noTransaction
  | failedToGetTransaction
  | query
  deriving DecidableEq

/-- `EventView`: the version of the transaction that emitted the event. -/
structure EventView where
  transactionVersion : UInt64
  deriving DecidableEq

/-- `TransactionDataView`, as far as `sync_sent_transactions` tells its kinds apart. -/
inductive TransactionDataView where
  | userTransaction
  | other
  deriving DecidableEq

/-- `TransactionView`: version, kind and hash (hex) of a transaction, and its `bytes` as
`BytesView::into_bytes` decodes them (`none`: the hex does not decode). -/
structure TransactionView where
  version : UInt64
  transaction : TransactionDataView
  hash : String
  bytes : Option (List UInt8)
  deriving DecidableEq

/-- `AmountView` and `Amount`. -/
structure Amount where
  amount : UInt64
  currency : String
  deriving DecidableEq

/-- `AccountView`, the fields `sync_account` reads. -/
structure AccountView where
  authenticationKey : Option (List UInt8)
  sequenceNumber : UInt64
  sentEventsKey : String
  receivedEventsKey : String
  balances : List Amount
  deriving DecidableEq

/-- `AccountData` as `sync_account` builds it (no key pair, status `Persisted`). -/
structure AccountData where
  address : String
  authenticationKey : Option (List UInt8)
  sequenceNumber : UInt64
  deriving DecidableEq

/-- `AccountInfo`, the account as sent to pRuntime. -/
structure AccountInfo where
  address : String
  authenticationKey : Option (List UInt8)
  sequenceNumber : UInt64
  sentEventsKey : String
  receivedEventsKey : String
  balances : List Amount
  deriving DecidableEq

/-- `EpochState`, the validator set of an epoch, carried for its epoch. -/
structure EpochState where
  epoch : UInt64
  deriving DecidableEq

/-- `LedgerInfoWithSignatures`: its version, and the next epoch's validators when it ends an
epoch. -/
structure LedgerInfo where
  version : UInt64
  nextEpochState : Option EpochState
  deriving DecidableEq

/-- `EpochChangeProof`: its ledger infos with signatures. -/
structure EpochChangeProof where
  ledgerInfoWithSigs : List LedgerInfo
  deriving DecidableEq

/-- `TrustedState`: the latest version it trusts, and the validator set that verifies what
comes after it. -/
structure TrustedState where
  latestVersion : UInt64
  epochState : EpochState
  deriving DecidableEq

/-- `TrustedState::try_from` on a ledger info: it trusts a ledger info that ends an epoch, at its
version and with the next epoch's validators, and is an `Err` on any other. -/
def TrustedState.tryFrom (li : LedgerInfo) : Option TrustedState :=
  li.nextEpochState.map (⟨li.version, ·⟩)

/-- The first ledger info of the proof exists and `TrustedState::try_from` accepts it, as
`init_state` needs. -/
def EpochChangeProof.firstTrustable (p : EpochChangeProof) : Bool :=
  (p.ledgerInfoWithSigs.head?.bind TrustedState.tryFrom).isSome

theorem EpochChangeProof.firstTrustable_iff {p : EpochChangeProof} :
    p.firstTrustable ↔ ∃ zero trusted, p.ledgerInfoWithSigs.head? = some zero ∧
      TrustedState.tryFrom zero = some trusted := by
  simp only [firstTrustable, Option.isSome_iff_exists, Option.bind_eq_some]
  exact ⟨fun ⟨t, z, hz, ht⟩ => ⟨z, t, hz, ht⟩, fun ⟨z, t, hz, ht⟩ => ⟨t, z, hz, ht⟩⟩

/-- `TrustedStateChange`, the outcome of `verify_and_ratchet`. -/
inductive TrustedStateChange where
  | epoch (newState : TrustedState) (latestEpochChangeLi : LedgerInfo)
  | version (newState : TrustedState)
  | noChange

/-- `AccountStateWithProofView`, decoded: the hash of the transaction info (hex) standing for
the proofs, and the account-state blob (`none` when the view has none). -/
structure AccountStateWithProofView where
  transactionInfoHash : String
  blob : Option (List UInt8)
  deriving DecidableEq

/-- `TransactionWithProof`, with the hash of its transaction info standing for the proofs. -/
structure TransactionWithProof where
  transactionBytes : List UInt8
  epochChangeProof : EpochChangeProof
  ledgerInfoWithSignatures : LedgerInfo
  transactionInfoHash : String
  accountStateBlob : List UInt8
  version : UInt64
  deriving DecidableEq

/-- `QueryReqData`, the queries `main.rs` sends to the Diem contract of pRuntime. -/
inductive QueryReqData where
  | setTrustedState (trustedState : LedgerInfo)
  | accountData (accountData : AccountInfo)
  | verifyTransaction (accountAddress : String) (transactionWithProof : TransactionWithProof)
  deriving DecidableEq

/-- `QueryRespData`, as far as `main.rs` reads it. -/
inductive QueryRespData where
  | setTrustedState (status : Bool)
  | other
  deriving DecidableEq

/-- A JSON-RPC request of the bridge to the Diem node. -/
inductive RpcRequest where
  | getStateProof (version : UInt64)
  | getAccount (address : String)
  | getEvents (key : String) (start limit : UInt64)
  | getAccountTransactions (address : String) (start limit : UInt64) (includeEvents : Bool)
  | getAccountStateWithProof (address : String) (version ledgerVersion : UInt64)
  | getTransactions (startVersion limit : UInt64) (includeEvents : Bool)
  deriving DecidableEq

/-- A reply of the node, decoded as the view it holds. -/
inductive RpcReply where
  | stateProof (epochChangeProof : EpochChangeProof) (ledgerInfo : LedgerInfo)
  | account (view : Option AccountView)
  | events (events : List EventView)
  | transactions (transactions : List TransactionView)
  | accountStateWithProof (view : AccountStateWithProofView)
  deriving DecidableEq

namespace RpcReply

/-- `StateProofView::from_response` and the two `bcs` decodes of `init_state`. -/
def stateProof? : RpcReply → Option (EpochChangeProof × LedgerInfo)
  | stateProof p li => some (p, li)
  | _ => none

@[simp] theorem stateProof?_eq_some {r : RpcReply} {p : EpochChangeProof} {li : LedgerInfo} :
    r.stateProof? = some (p, li) ↔ r = .stateProof p li := by
  cases r <;> simp [stateProof?]

/-- `AccountView::optional_from_response`. -/
def account? : RpcReply → Option (Option AccountView)
  | account v => some v
  | _ => none

@[simp] theorem account?_eq_some {r : RpcReply} {v : Option AccountView} :
    r.account? = some v ↔ r = .account v := by
  cases r <;> simp [account?]

/-- `EventView::vec_from_response`. -/
def events? : RpcReply → Option (List EventView)
  | events es => some es
  | _ => none

@[simp] theorem events?_eq_some {r : RpcReply} {es : List EventView} :
    r.events? = some es ↔ r = .events es := by
  cases r <;> simp [events?]

/-- `TransactionView::vec_from_response`. -/
def transactions? : RpcReply → Option (List TransactionView)
  | transactions ts => some ts
  | _ => none

@[simp] theorem transactions?_eq_some {r : RpcReply} {ts : List TransactionView} :
    r.transactions? = some ts ↔ r = .transactions ts := by
  cases r <;> simp [transactions?]

/-- `AccountStateWithProofView::from_response` and the `bcs` decodes of the proofs in
`get_transaction_proof`. -/
def accountStateWithProof? : RpcReply → Option AccountStateWithProofView
  | accountStateWithProof view => some view
  | _ => none

@[simp] theorem accountStateWithProof?_eq_some {r : RpcReply} {view : AccountStateWithProofView} :
    r.accountStateWithProof? = some view ↔ r = .accountStateWithProof view := by
  cases r <;> simp [accountStateWithProof?]

/-- A reply on which none of the `unwrap`s `main.rs` applies to the answer of `request` fails:
the view of the kind it asks for; a state proof whose first ledger info ends an epoch
(`init_state`); transactions whose bytes decode and an account state with a blob
(`get_transaction_proof`). -/
def Fits : RpcRequest → RpcReply → Prop
  | .getStateProof _, r => ∃ p li, r.stateProof? = some (p, li) ∧ p.firstTrustable
  | .getAccount _, r => r.account?.isSome
  | .getEvents .., r => r.events?.isSome
  | .getAccountTransactions .., r => ∃ ts, r.transactions? = some ts ∧ ∀ t ∈ ts, t.bytes.isSome
  | .getAccountStateWithProof .., r => ∃ view, r.accountStateWithProof? = some view ∧
      view.blob.isSome
  | .getTransactions .., r => ∃ ts, r.transactions? = some ts ∧ ∀ t ∈ ts, t.bytes.isSome

end RpcReply

/-- A node whose every answer fits its request (it may still fail any call). -/
def Honest (rpc : List RpcRequest → RpcRequest → Option RpcReply) : Prop :=
  ∀ before request reply, rpc before request = some reply → reply.Fits request

/-- The fields of `DiemBridge` the bridge reads or writes (the RPC client is the world). -/
structure DiemBridge where
  epochChangeProof : Option EpochChangeProof
  trustedState : Option TrustedState
  latestEpochChangeLi : Option LedgerInfo
  latestLi : Option LedgerInfo
  sentEventsKey : Option String
  receivedEventsKey : Option String
  receivedEvents : Option (List EventView)
  transactions : Option (List TransactionView)
  account : Option AccountData
  balances : Option (List Amount)
  deriving DecidableEq

/-- `DiemBridge::new`: nothing known yet. -/
def DiemBridge.new : DiemBridge :=
  ⟨none, none, none, none, none, none, none, none, none, none⟩

/-- The bridge and its world.  The node answers a request given the requests before it
(`none`: the call fails), and pRuntime a query given the queries before it (`none`: the query
returns `Err`); `asked` and `sent` record every request to the node and every query to pRuntime,
with whether it returned `Ok`. -/
structure Env where
  bridge : DiemBridge
  rpc : List RpcRequest → RpcRequest → Option RpcReply
  pruntime : List (QueryReqData × Bool) → QueryReqData → Option QueryRespData
  asked : List RpcRequest
  sent : List (QueryReqData × Bool)

/-- A step of the bridge: it panics with a message, or goes on with the `Env` it leaves. -/
abbrev BridgeM := StateT Env (Except String)

end Bridge

end Plibra
