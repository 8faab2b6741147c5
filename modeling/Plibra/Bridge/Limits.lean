import Plibra.Bridge.Rounds

/-!
# Plibra.Bridge.Limits — the account's sequence number bounds what is synced

`sync_account` syncs the received events only when the account's sequence number is not `0`, and
`sync_sent_transactions` asks `get_account_transactions` for at most that many transactions.
The sequence number of a Diem account counts the transactions it has sent, not those it has
received.  So an account that has never sent a transaction never has a received payment synced:
each round asks the node only for the account and its (empty) transaction listing (`AskedOnly`).
-/

namespace Plibra

namespace Bridge

/-- The run from `env` to `env'` asked the node only requests among `requests`. -/
def AskedOnly (requests : List RpcRequest) (env env' : Env) : Prop :=
  ∃ asked, env'.asked = env.asked ++ asked ∧ ∀ request ∈ asked, request ∈ requests

theorem AskedOnly.refl (requests : List RpcRequest) (env : Env) : AskedOnly requests env env :=
  ⟨[], by simp, by simp⟩

theorem AskedOnly.trans {requests : List RpcRequest} {env env' env'' : Env}
    (h : AskedOnly requests env env') (h' : AskedOnly requests env' env'') :
    AskedOnly requests env env'' := by
  obtain ⟨asked, hasked, hr⟩ := h
  obtain ⟨asked', hasked', hr'⟩ := h'
  exact ⟨asked ++ asked', by rw [hasked', hasked, List.append_assoc],
    List.forall_mem_append.mpr ⟨hr, hr'⟩⟩

/-- The requests of a round of an account with sequence number `0`: the account, and its
transactions under the limit `0`. -/
def receiveOnlyRequests : List RpcRequest :=
  [.getAccount aliceAddress, .getAccountTransactions aliceAddress 0 0 false]

section ReceiveOnly

variable {env : Env}
  {ratchet : TrustedState → LedgerInfo → EpochChangeProof → Except String TrustedStateChange}

/-- `sync_sent_transactions` over a node that lists no transaction: nothing is new, and the empty
listing is written. -/
theorem syncSentTransactions_none (steady : Steady env.rpc) {account : AccountData}
    (hacc : env.bridge.account = some account)
    (hts : env.rpc [] (.getAccountTransactions account.address 0 account.sequenceNumber false) =
      some (.transactions []))
    (accountAddress : String) (stateInitiated : Bool) :
    Returns (syncSentTransactions ratchet accountAddress stateInitiated)
      (fun r env' => r = .ok () ∧ env' = { env with
        asked := env.asked ++ [.getAccountTransactions account.address 0 account.sequenceNumber false]
        bridge := { env.bridge with transactions := some [] } }) env := by
  simp only [syncSentTransactions, syncAndRecord, loopThenRecord, syncTransactions, returns_bind,
    returns_get, returns_unwrap, hacc, Option.some.injEq, exists_eq_left', returns_requestRpc,
    steady env.asked, hts, forall_eq', RpcReply.transactions?, List.filter_nil, List.length_nil,
    gt_iff_lt, lt_self_iff_false, decide_False, Bool.false_and, returns_ite, Bool.false_eq_true,
    if_false, returns_pure, returns_update, Option.some_ne_none, false_implies, and_true,
    true_and]

/-- The round of an account that has sent nothing: it returns, asks only for the account and its
(empty) transaction listing, sends pRuntime only the account data, and leaves the received
events as they were. -/
theorem syncAccount_receiveOnly (steady : Steady env.rpc) {view : AccountView}
    (hview : env.rpc [] (.getAccount aliceAddress) = some (.account (some view)))
    (hseq : view.sequenceNumber = 0)
    (hlimit : env.rpc [] (.getAccountTransactions aliceAddress 0 0 false) =
      some (.transactions [])) :
    Returns (syncAccount ratchet aliceAddress)
      (fun _ env' => env'.rpc = env.rpc ∧ env'.bridge.receivedEvents = env.bridge.receivedEvents ∧
        Quiet env env' ∧ AskedOnly receiveOnlyRequests env env') env := by
  simp only [syncAccount, returns_bind, returns_requestRpc, steady env.asked, hview,
    Option.some.injEq, forall_eq', RpcReply.account?, returns_unwrap, exists_eq_left',
    returns_update, returns_query, Option.some_ne_none, false_implies, and_true]
  have quiet (ok : Bool) : Quiet env { env with
      asked := env.asked ++ [.getAccount aliceAddress]
      sent := env.sent ++ [(.accountData ⟨aliceAddress, view.authenticationKey,
        view.sequenceNumber, view.sentEventsKey, view.receivedEventsKey, view.balances⟩, ok)] } :=
    ⟨⟨[_], rfl, by simp⟩, [_], rfl, by simp [RpcRequest.isListing]⟩
  have account : AskedOnly receiveOnlyRequests env { env with
      asked := env.asked ++ [.getAccount aliceAddress] } :=
    ⟨[_], rfl, by simp [receiveOnlyRequests]⟩
  refine ⟨fun _ _ => ?_, fun _ => by simpa using ⟨quiet false, account⟩⟩
  simp only [returns_pure, returns_bind, returns_ite]
  rw [if_neg (by simp [hseq])]
  refine (syncSentTransactions_none (by exact steady) rfl (by rw [hseq]; exact hlimit) _ _).mono ?_
  rintro _ _ ⟨-, rfl⟩
  refine ⟨rfl, rfl, (quiet true).trans (Quiet.asked _ [_] (by simp [RpcRequest.isListing])),
    account.trans ⟨[_], rfl, by simp [receiveOnlyRequests, hseq]⟩⟩

/-- **An account that has sent nothing never has a payment forwarded.**  Over a steady node that
lists the account with sequence number `0` (and so, under the limit `0`, no transaction of it),
every number of rounds of the bridge loop returns, asks the node only for the account and its
transactions, sends pRuntime nothing but the account data, and never records a received event,
whatever payments to the account the node lists. -/
theorem syncRounds_receiveOnly (steady : Steady env.rpc) {view : AccountView}
    (hview : env.rpc [] (.getAccount aliceAddress) = some (.account (some view)))
    (hseq : view.sequenceNumber = 0)
    (hlimit : env.rpc [] (.getAccountTransactions aliceAddress 0 0 false) =
      some (.transactions []))
    (n : Nat) :
    Returns (syncRounds ratchet n)
      (fun _ env' => env'.bridge.receivedEvents = env.bridge.receivedEvents ∧ Quiet env env' ∧
        AskedOnly receiveOnlyRequests env env') env := by
  induction n generalizing env with
  | zero => simpa [syncRounds] using ⟨Quiet.refl env, AskedOnly.refl _ env⟩
  | succ n ih =>
    refine Returns.bind_of (syncAccount_receiveOnly steady hview hseq hlimit) ?_
    rintro _ env₁ ⟨hrpc₁, hrecv₁, quiet₁, asked₁⟩
    refine (ih (by rw [hrpc₁]; exact steady) (by rw [hrpc₁]; exact hview)
      (by rw [hrpc₁]; exact hlimit)).mono ?_
    exact fun _ _ ⟨hrecv, quiet, asked⟩ =>
      ⟨hrecv.trans hrecv₁, quiet₁.trans quiet, asked₁.trans asked⟩

/-- A node that lists Alice's account with sequence number `0`, and one payment received, in
transaction `5`. -/
def receiveOnlyNode (_ : List RpcRequest) : RpcRequest → Option RpcReply
  | .getStateProof _ => some (.stateProof ⟨[genesisLedger]⟩ steadyLedger)
  | .getAccount _ => some (.account (some { steadyView with sequenceNumber := 0 }))
  | .getEvents .. => some (.events [⟨5⟩])
  | .getAccountTransactions .. => some (.transactions [])
  | .getAccountStateWithProof .. => some (.accountStateWithProof ⟨"h5", some [1]⟩)
  | .getTransactions .. => some (.transactions [steadyPayment])

/-- Nothing known yet, before that node and a pRuntime that accepts every query. -/
def receiveOnlyStart : Env :=
  { steadyStart with rpc := receiveOnlyNode }

theorem syncRounds_receiveOnly_receiveOnlyStart :
    Steady receiveOnlyStart.rpc ∧
      receiveOnlyStart.rpc [] (.getAccount aliceAddress) =
        some (.account (some { steadyView with sequenceNumber := 0 })) ∧
      ({ steadyView with sequenceNumber := 0 } : AccountView).sequenceNumber = 0 ∧
      receiveOnlyStart.rpc [] (.getAccountTransactions aliceAddress 0 0 false) =
        some (.transactions []) ∧
      Returns (syncRounds noChange 3)
        (fun _ env' => env'.bridge.receivedEvents = receiveOnlyStart.bridge.receivedEvents ∧
          Quiet receiveOnlyStart env' ∧ AskedOnly receiveOnlyRequests receiveOnlyStart env')
        receiveOnlyStart :=
  have steady : Steady receiveOnlyStart.rpc := fun _ _ => rfl
  ⟨steady, rfl, rfl, rfl, syncRounds_receiveOnly steady rfl rfl rfl 3⟩

end ReceiveOnly

end Bridge

end Plibra
