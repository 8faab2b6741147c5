import Plibra.Bridge.Forwarding

/-!
# Plibra.Bridge.Rounds — a round after a successful round changes nothing

`sync_account` records the node's account, its event listing and its transaction listing, and
the next round passes over every event and transaction it finds recorded.  So over a node whose
answers do not change (`Steady`), the round after one that returned `Ok` is a fixed point: it
leaves the bridge as it was, sends pRuntime nothing but the account data, and asks the node only
for listings (`Quiet`).  The bridge never fetches or verifies a transaction twice, delivered or
not.  Nothing is assumed of pRuntime or of `verify_and_ratchet`, which later rounds never call.
-/

namespace Plibra

namespace Bridge

/-! ## Definitions -/

/-- A node whose answer to a request does not depend on the requests before it. -/
def Steady (rpc : List RpcRequest → RpcRequest → Option RpcReply) : Prop :=
  ∀ before request, rpc before request = rpc [] request

/-- A request for one of the listings a round reads: the account, its events, its
transactions. -/
def RpcRequest.isListing : RpcRequest → Bool
  | .getAccount _ | .getEvents .. | .getAccountTransactions .. => true
  | _ => false

/-- The part of the bridge a round reads back: the account with its keys and balances, and the
two listings. -/
structure Listing where
  account : Option AccountData
  sentEventsKey : Option String
  receivedEventsKey : Option String
  balances : Option (List Amount)
  receivedEvents : Option (List EventView)
  transactions : Option (List TransactionView)

/-- The listing part of the bridge. -/
def DiemBridge.listing (b : DiemBridge) : Listing :=
  ⟨b.account, b.sentEventsKey, b.receivedEventsKey, b.balances, b.receivedEvents, b.transactions⟩

/-- What a round that returns `Ok` leaves, over a node answering `node`: the account as the node
lists it, with the node's listing of its received events (when its sequence number is not `0`)
and of its transactions; or nothing, when the node knows no such account. -/
def Recorded (node : RpcRequest → Option RpcReply) (accountAddress : String) (b : DiemBridge) :
    Prop :=
  node (.getAccount accountAddress) = some (.account none) ∨
  ∃ view, node (.getAccount accountAddress) = some (.account (some view)) ∧
    b.account = some ⟨accountAddress, view.authenticationKey, view.sequenceNumber⟩ ∧
    b.sentEventsKey = some view.sentEventsKey ∧ b.receivedEventsKey = some view.receivedEventsKey ∧
    b.balances = some view.balances ∧
    (0 < view.sequenceNumber → ∃ events,
      node (.getEvents view.receivedEventsKey 0 view.sequenceNumber) = some (.events events) ∧
        b.receivedEvents = some events) ∧
    ∃ transactions,
      node (.getAccountTransactions accountAddress 0 view.sequenceNumber false) =
        some (.transactions transactions) ∧ b.transactions = some transactions

/-! ## Calls that keep the listing -/

section Keeps

variable {env : Env}

theorem getTransactionByVersion_keeps (version : UInt64) :
    Ensures (getTransactionByVersion version)
      (fun _ env' => env'.rpc = env.rpc ∧ env'.bridge = env.bridge) env := by
  simp only [getTransactionByVersion, ensures_bind, ensures_requestRpc, ensures_unwrap]
  refine ⟨fun _ _ transactions _ => ?_, fun _ => by simp⟩
  cases transactions <;> simp

theorem getTransactionProof_keeps (transaction : TransactionView) :
    Ensures (getTransactionProof transaction)
      (fun _ env' => env'.rpc = env.rpc ∧ env'.bridge = env.bridge) env := by
  simp only [getTransactionProof, ensures_bind, ensures_get, ensures_unwrap, ensures_requestRpc]
  refine fun _ _ _ _ => ⟨fun _ _ _ _ => ?_, fun _ => by simp⟩
  simp only [ensures_ite, ensures_bind, ensures_get, ensures_unwrap]
  split <;> simp

theorem syncTransactionWithProof_keeps (transaction : TransactionView) (accountAddress : String) :
    Ensures (syncTransactionWithProof transaction accountAddress)
      (fun _ env' => env'.rpc = env.rpc ∧ env'.bridge = env.bridge) env := by
  refine Ensures.bind_of (getTransactionProof_keeps transaction) ?_
  rintro (_ | proof) env₁ ⟨hrpc, hb⟩
  · simpa using ⟨hrpc, hb⟩
  · simp only [ensures_bind, ensures_query]
    constructor <;> intros <;> simpa using ⟨hrpc, hb⟩

theorem syncNewEvents_keeps (accountAddress : String) (events : List EventView) :
    Ensures (syncNewEvents accountAddress events)
      (fun _ env' => env'.rpc = env.rpc ∧ env'.bridge = env.bridge) env := by
  induction events generalizing env with
  | nil => simp [syncNewEvents]
  | cons event events ih =>
    refine Ensures.bind_of (getTransactionByVersion_keeps _) ?_
    rintro (_ | transaction) env₁ ⟨hrpc₁, hb₁⟩
    · exact ih.mono fun _ _ ⟨h, hb⟩ => ⟨h.trans hrpc₁, hb.trans hb₁⟩
    · refine Ensures.bind_of (syncTransactionWithProof_keeps transaction accountAddress) ?_
      rintro (_ | ⟨⟩) env₂ ⟨hrpc₂, hb₂⟩
      · simpa using ⟨hrpc₂.trans hrpc₁, hb₂.trans hb₁⟩
      · exact ih.mono fun _ _ ⟨h, hb⟩ => ⟨h.trans (hrpc₂.trans hrpc₁), hb.trans (hb₂.trans hb₁)⟩

theorem syncTransactions_keeps (accountAddress : String) (transactions : List TransactionView) :
    Ensures (syncTransactions accountAddress transactions)
      (fun _ env' => env'.rpc = env.rpc ∧ env'.bridge = env.bridge) env := by
  induction transactions generalizing env with
  | nil => simp [syncTransactions]
  | cons transaction transactions ih =>
    refine Ensures.bind_of (syncTransactionWithProof_keeps transaction accountAddress) ?_
    rintro (_ | ⟨⟩) env₁ ⟨hrpc₁, hb₁⟩
    · simpa using ⟨hrpc₁, hb₁⟩
    · exact ih.mono fun _ _ ⟨h, hb⟩ => ⟨h.trans hrpc₁, hb.trans hb₁⟩

variable {ratchet : TrustedState → LedgerInfo → EpochChangeProof → Except String TrustedStateChange}

theorem verifyStateProof_listing (li : LedgerInfo) (epochChangeProof : EpochChangeProof) :
    Ensures (verifyStateProof ratchet li epochChangeProof)
      (fun _ env' => env'.rpc = env.rpc ∧ env'.bridge.listing = env.bridge.listing) env := by
  simp only [verifyStateProof, ensures_bind, ensures_get, ensures_unwrap, ensures_ite]
  intro trusted _
  split
  · simp
  · rcases ratchet trusted li epochChangeProof with _ | ⟨_, eli⟩ | _ | _ <;>
      simp [DiemBridge.listing]

theorem initState_listing (withPr : Bool) :
    Ensures (initState ratchet withPr)
      (fun _ env' => env'.rpc = env.rpc ∧ env'.bridge.listing = env.bridge.listing) env := by
  simp only [initState, ensures_bind, ensures_requestRpc, ensures_unwrap, ensures_update]
  refine ⟨fun _ _ ⟨epochChangeProof, li⟩ _ _ _ _ _ => ?_, fun _ => by simp⟩
  refine (verifyStateProof_listing li epochChangeProof).mono ?_
  rintro _ env₂ ⟨hrpc₂, hl₂⟩
  cases withPr
  · simpa using ⟨hrpc₂, hl₂⟩
  · simp only [ensures_ite, ensures_bind, ensures_query]
    constructor
    · rintro ((_ | _) | _) _ <;> simpa using ⟨hrpc₂, hl₂⟩
    · intro; simpa using ⟨hrpc₂, hl₂⟩

/-- The loop keeps the bridge, so what `loopThenRecord` leaves is the record of what it found. -/
theorem loopThenRecord_listing {loop : BridgeM (Except Error Unit)}
    {record : DiemBridge → DiemBridge}
    (hloop : Ensures loop (fun _ env' => env'.rpc = env.rpc ∧ env'.bridge = env.bridge) env) :
    Ensures (loopThenRecord loop record)
      (fun r env' => env'.rpc = env.rpc ∧ (r = .ok () → env'.bridge = record env.bridge)) env := by
  refine Ensures.bind_of hloop ?_
  rintro (_ | ⟨⟨⟩⟩) env₁ ⟨hrpc₁, hb₁⟩ <;> simp [hrpc₁, hb₁]

theorem syncAndRecord_listing (needInit : Bool) {loop : BridgeM (Except Error Unit)}
    {record : DiemBridge → DiemBridge}
    (hloop : ∀ {env : Env},
      Ensures loop (fun _ env' => env'.rpc = env.rpc ∧ env'.bridge = env.bridge) env) :
    Ensures (syncAndRecord ratchet needInit loop record)
      (fun r env' => env'.rpc = env.rpc ∧ (r = .ok () →
        ∃ b, b.listing = env.bridge.listing ∧ env'.bridge = record b)) env := by
  simp only [syncAndRecord, ensures_bind, ensures_ite]
  split
  · refine (initState_listing false).mono ?_
    rintro (_ | ⟨⟨⟩⟩) env₁ ⟨hrpc₁, hl₁⟩
    · simp [hrpc₁]
    · simp only [ensures_bind, ensures_pure]
      exact (loopThenRecord_listing hloop).mono fun _ _ ⟨hrpc, hb⟩ =>
        ⟨hrpc.trans hrpc₁, fun hr => ⟨_, hl₁, hb hr⟩⟩
  · simpa using (loopThenRecord_listing hloop).mono fun _ _ ⟨hrpc, hb⟩ =>
      ⟨hrpc, fun hr => ⟨_, rfl, hb hr⟩⟩

/-- `sync_receiving_transactions` that returns `Ok` records the node's event listing. -/
theorem syncReceivingTransactions_listing (steady : Steady env.rpc) (receivedEventsKey : String)
    (sequenceNumber : UInt64) (accountAddress : String) (stateInitiated : Bool) :
    Ensures (syncReceivingTransactions ratchet receivedEventsKey sequenceNumber accountAddress
        stateInitiated)
      (fun r env' => env'.rpc = env.rpc ∧ (r = .ok () → ∃ events,
        env.rpc [] (.getEvents receivedEventsKey 0 sequenceNumber) = some (.events events) ∧
        env'.bridge.listing = { env.bridge.listing with receivedEvents := some events })) env := by
  simp only [syncReceivingTransactions, ensures_bind, ensures_requestRpc]
  refine ⟨fun reply h => ?_, fun _ => by simp⟩
  simp only [ensures_unwrap, ensures_get, RpcReply.events?_eq_some]
  rintro events rfl
  refine (syncAndRecord_listing _ (syncNewEvents_keeps _ _)).mono ?_
  rintro _ env' ⟨hrpc, hrecord⟩
  refine ⟨hrpc, fun hr => ?_⟩
  obtain ⟨b, hb, heq⟩ := hrecord hr
  exact ⟨events, steady env.asked _ ▸ h, by rw [heq, ← hb]; rfl⟩

/-- `sync_sent_transactions` that returns `Ok` records the node's transaction listing of the
account the bridge holds. -/
theorem syncSentTransactions_listing (steady : Steady env.rpc) {account : AccountData}
    (hacc : env.bridge.account = some account) (accountAddress : String) (stateInitiated : Bool) :
    Ensures (syncSentTransactions ratchet accountAddress stateInitiated)
      (fun r env' => env'.rpc = env.rpc ∧ (r = .ok () → ∃ transactions,
        env.rpc [] (.getAccountTransactions account.address 0 account.sequenceNumber false) =
          some (.transactions transactions) ∧
        env'.bridge.listing = { env.bridge.listing with transactions := some transactions })) env := by
  simp only [syncSentTransactions, ensures_bind, ensures_get, ensures_unwrap, hacc,
    Option.some.injEq, forall_eq', ensures_requestRpc]
  refine ⟨fun reply h => ?_, fun _ => by simp⟩
  simp only [ensures_unwrap, ensures_get, RpcReply.transactions?_eq_some]
  rintro transactions rfl
  refine (syncAndRecord_listing _ (syncTransactions_keeps _ _)).mono ?_
  rintro _ env' ⟨hrpc, hrecord⟩
  refine ⟨hrpc, fun hr => ?_⟩
  obtain ⟨b, hb, heq⟩ := hrecord hr
  exact ⟨transactions, steady env.asked _ ▸ h, by rw [heq, ← hb]; rfl⟩

end Keeps

/-! ## What a round that returns `Ok` records -/

section Records

variable {env : Env}
  {ratchet : TrustedState → LedgerInfo → EpochChangeProof → Except String TrustedStateChange}
  {accountAddress : String} {view : AccountView}

/-- The end of `sync_account`, once the account is written and the received events (if any) are
recorded: `sync_sent_transactions` that returns `Ok` completes the record. -/
theorem syncSentTransactions_completes (steady : Steady env.rpc)
    (hview : env.rpc [] (.getAccount accountAddress) = some (.account (some view)))
    {received : Option (List EventView)} {transactions : Option (List TransactionView)}
    (hl : env.bridge.listing = ⟨some ⟨accountAddress, view.authenticationKey, view.sequenceNumber⟩,
      some view.sentEventsKey, some view.receivedEventsKey, some view.balances, received,
      transactions⟩)
    (hreceived : 0 < view.sequenceNumber → ∃ events,
      env.rpc [] (.getEvents view.receivedEventsKey 0 view.sequenceNumber) = some (.events events) ∧
        received = some events) :
    Ensures (syncSentTransactions ratchet accountAddress false)
      (fun r env' => env'.rpc = env.rpc ∧
        (r = .ok () → Recorded (env.rpc []) accountAddress env'.bridge)) env := by
  simp only [DiemBridge.listing, Listing.mk.injEq] at hl
  obtain ⟨hacc, hsent, hrecv, hbal, hevents, -⟩ := hl
  refine (syncSentTransactions_listing steady hacc _ _).mono ?_
  rintro _ env' ⟨hrpc, hrecord⟩
  refine ⟨hrpc, fun hr => ?_⟩
  obtain ⟨listed, hts, hl'⟩ := hrecord hr
  simp only [DiemBridge.listing, Listing.mk.injEq] at hl'
  obtain ⟨hacc', hsent', hrecv', hbal', hevents', htrans'⟩ := hl'
  refine .inr ⟨view, hview, hacc'.trans hacc, hsent'.trans hsent, hrecv'.trans hrecv,
    hbal'.trans hbal, fun hpos => ?_, listed, hts, htrans'⟩
  obtain ⟨events, h, rfl⟩ := hreceived hpos
  exact ⟨events, h, hevents'.trans hevents⟩

/-- **A round that returns `Ok` records the node's listings.**  Over a steady node, `sync_account`
that returns `Ok` leaves the account as the node lists it, with the node's listing of its received
events (when its sequence number is not `0`) and of its transactions. -/
theorem syncAccount_records (steady : Steady env.rpc) (accountAddress : String) :
    Ensures (syncAccount ratchet accountAddress)
      (fun r env' => env'.rpc = env.rpc ∧
        (r = .ok () → Recorded (env.rpc []) accountAddress env'.bridge)) env := by
  simp only [syncAccount, ensures_bind, ensures_requestRpc, ensures_unwrap]
  refine ⟨fun reply h view? hv => ?_, fun _ => by simp⟩
  rw [steady, RpcReply.account?_eq_some.mp hv] at h
  rcases view? with _ | view
  · simpa using .inl h
  simp only [ensures_bind, ensures_update, ensures_query]
  refine ⟨fun _ _ => ?_, fun _ => by simp⟩
  simp only [ensures_pure, ensures_bind, ensures_ite]
  split
  · refine (syncReceivingTransactions_listing (by exact steady) _ _ _ _).mono ?_
    rintro (_ | ⟨⟨⟩⟩) env₃ ⟨hrpc₃, hrecord₃⟩ <;> simp only [ensures_bind, ensures_pure]
    · simpa using hrpc₃
    obtain ⟨events, hevents, hl₃⟩ := hrecord₃ rfl
    refine (syncSentTransactions_completes (by rw [hrpc₃]; exact steady) (hrpc₃ ▸ h)
      hl₃ fun _ => ⟨events, hrpc₃ ▸ hevents, rfl⟩).mono ?_
    exact fun _ _ ⟨hrpc, hrecorded⟩ => ⟨hrpc.trans hrpc₃, hrpc₃ ▸ hrecorded⟩
  · exact syncSentTransactions_completes steady h rfl (fun hpos => absurd hpos ‹_›)

end Records

/-! ## The round after it -/

/-- The run from `env` to `env'` sent pRuntime nothing but account data, and asked the node for
nothing but listings. -/
def Quiet (env env' : Env) : Prop :=
  (∃ queries, env'.sent = env.sent ++ queries ∧
    ∀ q ∈ queries, ∃ accountInfo, q.1 = .accountData accountInfo) ∧
  ∃ requests, env'.asked = env.asked ++ requests ∧ ∀ request ∈ requests, request.isListing

theorem Quiet.refl (env : Env) : Quiet env env :=
  ⟨⟨[], by simp, by simp⟩, [], by simp, by simp⟩

theorem Quiet.trans {env env' env'' : Env} (h : Quiet env env') (h' : Quiet env' env'') :
    Quiet env env'' := by
  obtain ⟨⟨queries, hsent, hq⟩, requests, hasked, hr⟩ := h
  obtain ⟨⟨queries', hsent', hq'⟩, requests', hasked', hr'⟩ := h'
  refine ⟨⟨queries ++ queries', by rw [hsent', hsent, List.append_assoc], ?_⟩,
    requests ++ requests', by rw [hasked', hasked, List.append_assoc], ?_⟩
  · simpa only [List.forall_mem_append] using ⟨hq, hq'⟩
  · simpa only [List.forall_mem_append] using ⟨hr, hr'⟩

/-- Requests for listings only. -/
theorem Quiet.asked (env : Env) (requests : List RpcRequest)
    (h : ∀ request ∈ requests, request.isListing) :
    Quiet env { env with asked := env.asked ++ requests } :=
  ⟨⟨[], by simp, by simp⟩, requests, rfl, h⟩

/-- An event listing knows each of its events. -/
theorem filter_knownEvent_self (events : List EventView) :
    events.filter (fun event => !knownEvent (some events) event) = [] :=
  List.filter_eq_nil_iff.mpr fun event h => by
    have : knownEvent (some events) event = true := by simpa [knownEvent] using ⟨event, h, rfl⟩
    simp [this]

/-- A transaction listing knows each of its transactions. -/
theorem filter_knownTransaction_self (transactions : List TransactionView)
    (p : TransactionView → Bool) :
    transactions.filter (fun t => !knownTransaction (some transactions) t && p t) = [] :=
  List.filter_eq_nil_iff.mpr fun t h => by
    have : knownTransaction (some transactions) t = true := by
      simpa [knownTransaction] using ⟨t, h, rfl⟩
    simp [this]

section Again

variable {env : Env}
  {ratchet : TrustedState → LedgerInfo → EpochChangeProof → Except String TrustedStateChange}

/-- `sync_receiving_transactions` over the listing it recorded: nothing is new, and the listing is
written back as it was. -/
theorem syncReceivingTransactions_again (steady : Steady env.rpc) {receivedEventsKey : String}
    {sequenceNumber : UInt64} {events : List EventView}
    (hevents : env.rpc [] (.getEvents receivedEventsKey 0 sequenceNumber) = some (.events events))
    (known : env.bridge.receivedEvents = some events) (accountAddress : String)
    (stateInitiated : Bool) :
    Returns (syncReceivingTransactions ratchet receivedEventsKey sequenceNumber accountAddress
        stateInitiated)
      (fun r env' => r = .ok () ∧
        env' = { env with asked := env.asked ++ [.getEvents receivedEventsKey 0 sequenceNumber] })
      env := by
  simp only [syncReceivingTransactions, syncAndRecord, loopThenRecord, syncNewEvents, returns_bind,
    returns_get, returns_unwrap, Option.some.injEq, exists_eq_left', returns_requestRpc,
    steady env.asked, hevents, forall_eq', RpcReply.events?, known, filter_knownEvent_self,
    List.length_nil, gt_iff_lt, lt_self_iff_false, decide_False, Bool.false_and, returns_ite,
    Bool.false_eq_true, if_false, returns_pure, returns_update, Option.some_ne_none, false_implies,
    and_true, true_and]
  rw [← known]

/-- `sync_sent_transactions` over the listing it recorded. -/
theorem syncSentTransactions_again (steady : Steady env.rpc) {account : AccountData}
    {transactions : List TransactionView} (hacc : env.bridge.account = some account)
    (hts : env.rpc [] (.getAccountTransactions account.address 0 account.sequenceNumber false) =
      some (.transactions transactions))
    (known : env.bridge.transactions = some transactions) (accountAddress : String)
    (stateInitiated : Bool) :
    Returns (syncSentTransactions ratchet accountAddress stateInitiated)
      (fun r env' => r = .ok () ∧ env' = { env with asked := env.asked ++
        [.getAccountTransactions account.address 0 account.sequenceNumber false] }) env := by
  simp only [syncSentTransactions, syncAndRecord, loopThenRecord, syncTransactions, returns_bind,
    returns_get, returns_unwrap, hacc, Option.some.injEq, exists_eq_left', returns_requestRpc,
    steady env.asked, hts, forall_eq', RpcReply.transactions?, known, filter_knownTransaction_self,
    List.length_nil, gt_iff_lt, lt_self_iff_false, decide_False, Bool.false_and, returns_ite,
    Bool.false_eq_true, if_false, returns_pure, returns_update, Option.some_ne_none, false_implies,
    and_true, true_and]
  rw [← hacc, ← known]

/-- **The round after a round that returned `Ok` is a fixed point.**  Over a steady node, from
what such a round records, `sync_account` returns, leaves the bridge as it was, sends pRuntime at
most the account data, and asks the node only for the listings. -/
theorem syncAccount_again (steady : Steady env.rpc) {accountAddress : String}
    (recorded : Recorded (env.rpc []) accountAddress env.bridge) :
    Returns (syncAccount ratchet accountAddress)
      (fun _ env' => env'.rpc = env.rpc ∧ env'.bridge = env.bridge ∧ Quiet env env') env := by
  simp only [syncAccount, returns_bind, returns_requestRpc, steady env.asked]
  rcases recorded with hnone | ⟨view, hview, hacc, hsent, hrecv, hbal, hevents, transactions,
    hts, htrans⟩
  · simpa [hnone, RpcReply.account?] using
      Quiet.asked env [.getAccount accountAddress] (by simp [RpcRequest.isListing])
  have hb : { env.bridge with
      account := some ⟨accountAddress, view.authenticationKey, view.sequenceNumber⟩
      sentEventsKey := some view.sentEventsKey
      receivedEventsKey := some view.receivedEventsKey
      balances := some view.balances } = env.bridge := by
    rw [← hacc, ← hsent, ← hrecv, ← hbal]
  simp only [hview, Option.some.injEq, forall_eq', RpcReply.account?, returns_unwrap,
    exists_eq_left', returns_bind, returns_update, hb, returns_query, Option.some_ne_none,
    false_implies, and_true]
  have quiet (ok : Bool) : Quiet env { env with
      asked := env.asked ++ [.getAccount accountAddress]
      sent := env.sent ++ [(.accountData ⟨accountAddress, view.authenticationKey,
        view.sequenceNumber, view.sentEventsKey, view.receivedEventsKey, view.balances⟩, ok)] } :=
    ⟨⟨[_], rfl, by simp⟩, [_], rfl, by simp [RpcRequest.isListing]⟩
  have listing : ∀ request ∈ [RpcRequest.getAccountTransactions accountAddress 0
      view.sequenceNumber false], request.isListing := by simp [RpcRequest.isListing]
  refine ⟨fun _ _ => ?_, fun _ => by simpa using quiet false⟩
  simp only [returns_pure, returns_bind, returns_ite]
  split
  · obtain ⟨events, hevents, known⟩ := hevents ‹_›
    refine (syncReceivingTransactions_again (by exact steady) (by exact hevents) (by exact known) _
      _).mono ?_
    rintro _ _ ⟨rfl, rfl⟩
    simp only [returns_bind, returns_pure]
    refine (syncSentTransactions_again (by exact steady) (by exact hacc) hts (by exact htrans)
      _ _).mono ?_
    rintro _ _ ⟨-, rfl⟩
    exact ⟨rfl, rfl, ((quiet true).trans (Quiet.asked _ [_] (by simp [RpcRequest.isListing]))).trans
      (Quiet.asked _ _ listing)⟩
  · refine (syncSentTransactions_again (by exact steady) (by exact hacc) hts (by exact htrans)
      _ _).mono ?_
    rintro _ _ ⟨-, rfl⟩
    exact ⟨rfl, rfl, (quiet true).trans (Quiet.asked _ _ listing)⟩

/-- Every later round of the loop is a fixed point. -/
theorem syncRounds_again (steady : Steady env.rpc)
    (recorded : Recorded (env.rpc []) aliceAddress env.bridge) (n : Nat) :
    Returns (syncRounds ratchet n)
      (fun _ env' => env'.rpc = env.rpc ∧ env'.bridge = env.bridge ∧ Quiet env env') env := by
  induction n generalizing env with
  | zero => simpa [syncRounds] using Quiet.refl env
  | succ n ih =>
    refine Returns.bind_of (syncAccount_again steady recorded) ?_
    rintro _ env₁ ⟨hrpc₁, hb₁, quiet₁⟩
    refine (ih (by rw [hrpc₁]; exact steady) (by rw [hrpc₁, hb₁]; exact recorded)).mono ?_
    exact fun _ _ ⟨hrpc, hb, quiet⟩ => ⟨hrpc.trans hrpc₁, hb.trans hb₁, quiet₁.trans quiet⟩

end Again

/-! ## The loop settles -/

/-- **The loop settles after one round that returns `Ok`.**  Over a node whose answers do not
depend on the requests before them, once `sync_account` returns `Ok`, every number of later rounds
of the loop returns, leaves the bridge exactly as that round left it, sends pRuntime nothing but
account data (no `VerifyTransaction`), and asks the node only for the account, its events and its
transactions (no transaction, proof or state proof): no transaction is fetched or forwarded
twice. -/
theorem syncRounds_settled (ratchet : TrustedState → LedgerInfo → EpochChangeProof →
      Except String TrustedStateChange) {env env₁ : Env} (steady : Steady env.rpc)
    (first : (syncAccount ratchet aliceAddress).run env = .ok (.ok (), env₁)) (n : Nat) :
    Returns (syncRounds ratchet n)
      (fun _ env' => env'.bridge = env₁.bridge ∧ Quiet env₁ env') env₁ := by
  obtain ⟨hrpc₁, recorded⟩ := syncAccount_records steady aliceAddress _ _ first
  refine (syncRounds_again (by rw [hrpc₁]; exact steady) (by rw [hrpc₁]; exact recorded rfl)
    n).mono ?_
  exact fun _ _ ⟨_, hb, quiet⟩ => ⟨hb, quiet⟩

/-- What the first round from `steadyStart` leaves: the state proof loaded, the payment
forwarded, the listings recorded. -/
def steadySynced : Env :=
  { steadyStart with
    bridge := steadyBridged.bridge
    asked := [.getAccount aliceAddress, .getEvents "received" 0 1, .getStateProof 0,
      .getTransactions 5 1 false, .getAccountStateWithProof aliceAddress 5 0,
      .getAccountTransactions aliceAddress 0 1 false]
    sent := steadyBridged.sent.tail }

theorem syncRounds_settled_steadyNode :
    Steady steadyStart.rpc ∧
      (syncAccount noChange aliceAddress).run steadyStart = .ok (.ok (), steadySynced) ∧
      Returns (syncRounds noChange 3)
        (fun _ env' => env'.bridge = steadySynced.bridge ∧ Quiet steadySynced env') steadySynced :=
  have steady : Steady steadyStart.rpc := fun _ _ => rfl
  have first : (syncAccount noChange aliceAddress).run steadyStart = .ok (.ok (), steadySynced) := rfl
  ⟨steady, first, syncRounds_settled noChange steady first 3⟩

end Bridge

end Plibra
