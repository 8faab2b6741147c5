import Plibra.Bridge.Returns

/-!
# Plibra.Bridge.Forwarding — the bridge forwards only proofs of reported transactions

`get_transaction_proof` builds a proof only when the hash of the transaction info the node sends
equals the transaction's hash; it takes the transaction's version and bytes, the account-state
blob of the same reply, and the ledger info and epoch-change proof `init_state` loaded from one
`get_state_proof` reply.  So every `VerifyTransaction` query carries a proof made, field by field,
of answers the node gave in the run (`Answered`), whatever the node and pRuntime answer.
`Ensures m post env` is the weakest liberal precondition, with one `@[simp]` rule per primitive;
`ForwardsReported` is the invariant.
-/

namespace Plibra

namespace Bridge

/-! ## Runs that return, whenever they do -/

section Calculus

variable {α β : Type} {post : α → Env → Prop} {env : Env}

/-- Every run of `m` from `env` that returns (does not panic) ends with a value and an `Env`
satisfying `post`. -/
def Ensures (m : BridgeM α) (post : α → Env → Prop) (env : Env) : Prop :=
  ∀ a env', m.run env = .ok (a, env') → post a env'

theorem ensures_of_run {m : BridgeM α} {a : α} {env' : Env} (h : m.run env = .ok (a, env')) :
    Ensures m post env ↔ post a env' :=
  ⟨fun H => H a env' h, fun hp a' env'' h' => by rw [h] at h'; cases h'; exact hp⟩

@[simp] theorem ensures_pure {a : α} : Ensures (pure a) post env ↔ post a env :=
  ensures_of_run rfl

@[simp] theorem ensures_bind {m : BridgeM β} {k : β → BridgeM α} :
    Ensures (m >>= k) post env ↔ Ensures m (fun b env' => Ensures (k b) post env') env := by
  constructor
  · intro H b env₁ hm a env' hk
    exact H a env' (by rw [StateT.run_bind, hm]; exact hk)
  · intro H a env' h
    obtain ⟨b, env₁, hm, hk⟩ := run_bind_ok h
    exact H b env₁ hm a env' hk

@[simp] theorem ensures_map {m : BridgeM β} {f : β → α} :
    Ensures (f <$> m) post env ↔ Ensures m (fun b => post (f b)) env := by
  rw [map_eq_pure_bind, ensures_bind]
  simp only [Function.comp, ensures_pure]

@[simp] theorem ensures_get {post : Env → Env → Prop} :
    Ensures (get : BridgeM Env) post env ↔ post env env :=
  ensures_of_run rfl

@[simp] theorem ensures_update {post : Unit → Env → Prop} {f : DiemBridge → DiemBridge} :
    Ensures (update f) post env ↔ post () { env with bridge := f env.bridge } :=
  ensures_of_run rfl

@[simp] theorem ensures_expect {msg : String} {o : Option α} :
    Ensures (expect msg o) post env ↔ ∀ a, o = some a → post a env := by
  cases o with
  | none => exact ⟨fun _ _ h => Option.noConfusion h, fun _ _ _ h => Except.noConfusion h⟩
  | some a => simp only [expect, ensures_pure, Option.some.injEq, forall_eq']

@[simp] theorem ensures_unwrap {o : Option α} :
    Ensures (unwrap o) post env ↔ ∀ a, o = some a → post a env :=
  ensures_expect

@[simp] theorem ensures_requestRpc {post : Except Error RpcReply → Env → Prop}
    {request : RpcRequest} :
    Ensures (requestRpc request) post env ↔
      (∀ reply, env.rpc env.asked request = some reply →
        post (.ok reply) { env with asked := env.asked ++ [request] }) ∧
      (env.rpc env.asked request = none →
        post (.error .failedToGetResponse) { env with asked := env.asked ++ [request] }) := by
  cases h : env.rpc env.asked request <;>
    simp [ensures_of_run (show (requestRpc request).run env = _ by
      simp only [requestRpc, StateT.run, h]; rfl)]

@[simp] theorem ensures_query {post : Except Error QueryRespData → Env → Prop}
    {req : QueryReqData} :
    Ensures (query req) post env ↔
      (∀ resp, env.pruntime env.sent req = some resp →
        post (.ok resp) { env with sent := env.sent ++ [(req, true)] }) ∧
      (env.pruntime env.sent req = none →
        post (.error .query) { env with sent := env.sent ++ [(req, false)] }) := by
  cases h : env.pruntime env.sent req <;>
    simp [ensures_of_run (show (query req).run env = _ by simp only [query, StateT.run, h]; rfl)]

@[simp] theorem ensures_ite {c : Prop} [Decidable c] {m m' : BridgeM α} :
    Ensures (if c then m else m') post env ↔ if c then Ensures m post env else Ensures m' post env := by
  split <;> rfl

theorem Ensures.mono {m : BridgeM α} {post' : α → Env → Prop} (h : Ensures m post env)
    (hpost : ∀ a env', post a env' → post' a env') : Ensures m post' env :=
  fun a env' hrun => hpost a env' (h a env' hrun)

theorem Ensures.and {m : BridgeM α} {post' : α → Env → Prop} (h : Ensures m post env)
    (h' : Ensures m post' env) : Ensures m (fun a env' => post a env' ∧ post' a env') env :=
  fun a env' hrun => ⟨h a env' hrun, h' a env' hrun⟩

theorem Ensures.bind_of {m : BridgeM β} {k : β → BridgeM α} {pre : β → Env → Prop}
    (hm : Ensures m pre env) (hk : ∀ b env', pre b env' → Ensures (k b) post env') :
    Ensures (m >>= k) post env :=
  ensures_bind.mpr (hm.mono hk)

end Calculus

/-! ## What the node reported -/

/-- The node gave `reply` to `request` in the run: the run asked `request` after the requests
`before`, and the node's answer after them is `reply`. -/
def Answered (env : Env) (request : RpcRequest) (reply : RpcReply) : Prop :=
  ∃ before, before ++ [request] <+: env.asked ∧ env.rpc before request = some reply

/-- From `env` to `env'` the node stayed as it was and was only asked more. -/
def Extends (env env' : Env) : Prop :=
  env'.rpc = env.rpc ∧ env.asked <+: env'.asked

/-- The node reported `transaction`: it is the first transaction of an answer to
`get_transactions` for one transaction, or one of an answer to `get_account_transactions`. -/
def Reported (env : Env) (transaction : TransactionView) : Prop :=
  (∃ version rest, Answered env (.getTransactions version 1 false)
      (.transactions (transaction :: rest))) ∨
  ∃ address limit transactions, Answered env (.getAccountTransactions address 0 limit false)
      (.transactions transactions) ∧ transaction ∈ transactions

/-- The node gave `epochChangeProof` and `li` together, in one answer to `get_state_proof`. -/
def StateReported (env : Env) (epochChangeProof : EpochChangeProof) (li : LedgerInfo) : Prop :=
  Answered env (.getStateProof 0) (.stateProof epochChangeProof li)

/-- The proof is one of `transaction`: its version, its bytes, and the hash of its transaction
info equal to the transaction's hash. -/
def Matches (proof : TransactionWithProof) (transaction : TransactionView) : Prop :=
  proof.version = transaction.version ∧ proof.transactionInfoHash = transaction.hash ∧
    transaction.bytes = some proof.transactionBytes

/-- Every field of `proof` is of the node: the version, bytes and hash of a reported transaction,
the epoch-change proof and ledger info of one state proof, and the transaction-info hash and
blob of one account-state proof at the transaction's version. -/
structure ProofReported (env : Env) (proof : TransactionWithProof) : Prop where
  transaction : ∃ transaction, Reported env transaction ∧ Matches proof transaction
  state : StateReported env proof.epochChangeProof proof.ledgerInfoWithSignatures
  accountState : ∃ address ledgerVersion,
    Answered env (.getAccountStateWithProof address proof.version ledgerVersion)
      (.accountStateWithProof ⟨proof.transactionInfoHash, some proof.accountStateBlob⟩)

/-- The invariant: the epoch-change proof and ledger info the bridge holds are of one state proof
of the node, and every `VerifyTransaction` query sent so far carries a proof the node reported. -/
structure ForwardsReported (env : Env) : Prop where
  held : ∀ epochChangeProof li, env.bridge.epochChangeProof = some epochChangeProof →
    env.bridge.latestLi = some li → StateReported env epochChangeProof li
  forwarded : ∀ address proof ok,
    (QueryReqData.verifyTransaction address proof, ok) ∈ env.sent → ProofReported env proof

/-- What a call that sends no query and loads no state proof leaves as it was. -/
def Frame (env env' : Env) : Prop :=
  Extends env env' ∧ env'.sent = env.sent ∧
    env'.bridge.epochChangeProof = env.bridge.epochChangeProof ∧
    env'.bridge.latestLi = env.bridge.latestLi

section Invariant

variable {env env' env'' : Env} {request : RpcRequest} {reply : RpcReply}

theorem Extends.refl (env : Env) : Extends env env :=
  ⟨rfl, List.prefix_refl _⟩

theorem Extends.trans (h : Extends env env') (h' : Extends env' env'') : Extends env env'' :=
  ⟨h'.1.trans h.1, h.2.trans h'.2⟩

theorem Frame.ask (env : Env) (requests : List RpcRequest) :
    Frame env { env with asked := env.asked ++ requests } :=
  ⟨⟨rfl, List.prefix_append _ _⟩, rfl, rfl, rfl⟩

/-- What `request_rpc` gets from the node is answered in the run. -/
theorem answered_ask (h : env.rpc env.asked request = some reply) :
    Answered { env with asked := env.asked ++ [request] } request reply :=
  ⟨env.asked, List.prefix_refl _, h⟩

theorem Answered.mono (h : Answered env request reply) (hext : Extends env env') :
    Answered env' request reply :=
  let ⟨before, hpre, hrpc⟩ := h
  ⟨before, hpre.trans hext.2, hext.1 ▸ hrpc⟩

theorem Reported.mono {transaction : TransactionView} (h : Reported env transaction)
    (hext : Extends env env') : Reported env' transaction := by
  rcases h with ⟨version, rest, h⟩ | ⟨address, limit, transactions, h, hmem⟩
  · exact .inl ⟨version, rest, h.mono hext⟩
  · exact .inr ⟨address, limit, transactions, h.mono hext, hmem⟩

theorem ProofReported.mono {proof : TransactionWithProof} (h : ProofReported env proof)
    (hext : Extends env env') : ProofReported env' proof :=
  let ⟨⟨t, ht, hmatch⟩, hstate, ⟨address, lv, hacc⟩⟩ := h
  ⟨⟨t, ht.mono hext, hmatch⟩, Answered.mono hstate hext, ⟨address, lv, hacc.mono hext⟩⟩

/-- Before any state proof is loaded and any query is sent, the invariant holds. -/
theorem forwardsReported_new (rpc : List RpcRequest → RpcRequest → Option RpcReply)
    (pruntime : List (QueryReqData × Bool) → QueryReqData → Option QueryRespData)
    (asked : List RpcRequest) : ForwardsReported ⟨DiemBridge.new, rpc, pruntime, asked, []⟩ :=
  ⟨fun _ _ h => Option.noConfusion h, fun _ _ _ h => (List.not_mem_nil _ h).elim⟩

theorem ForwardsReported.of_frame (forwards : ForwardsReported env) (frame : Frame env env') :
    ForwardsReported env' := by
  obtain ⟨hext, hsent, hp, hli⟩ := frame
  refine ⟨fun p li h₁ h₂ => ?_, fun address proof ok h => ?_⟩
  · exact Answered.mono (forwards.held p li (hp ▸ h₁) (hli ▸ h₂)) hext
  · exact (forwards.forwarded address proof ok (hsent ▸ h)).mono hext

/-- A request to the node keeps the invariant. -/
theorem ForwardsReported.ask (forwards : ForwardsReported env) (requests : List RpcRequest) :
    Extends env { env with asked := env.asked ++ requests } ∧
      ForwardsReported { env with asked := env.asked ++ requests } :=
  ⟨(Frame.ask env requests).1, forwards.of_frame (Frame.ask env requests)⟩

/-- A query keeps the invariant when, if it is a `VerifyTransaction`, its proof is one the node
reported. -/
theorem ForwardsReported.send (forwards : ForwardsReported env) {req : QueryReqData}
    (hreq : ∀ address proof, req = .verifyTransaction address proof → ProofReported env proof)
    (ok : Bool) : ForwardsReported { env with sent := env.sent ++ [(req, ok)] } := by
  have hext : Extends env { env with sent := env.sent ++ [(req, ok)] } := ⟨rfl, List.prefix_refl _⟩
  refine ⟨forwards.held, fun address proof ok' h => ?_⟩
  rcases List.mem_append.mp h with h | h
  · exact (forwards.forwarded address proof ok' h).mono hext
  · exact (hreq address proof (Prod.mk.inj (List.mem_singleton.mp h)).1.symm).mono hext

/-- A query other than `VerifyTransaction` keeps the invariant. -/
theorem query_ensures (forwards : ForwardsReported env) {req : QueryReqData}
    (hreq : ∀ address proof, req ≠ .verifyTransaction address proof) :
    Ensures (query req) (fun _ env' => Extends env env' ∧ ForwardsReported env') env := by
  have hsend (ok : Bool) := forwards.send (fun address proof h => absurd h (hreq address proof)) ok
  exact ensures_query.mpr ⟨fun _ _ => ⟨Extends.refl env, hsend true⟩,
    fun _ => ⟨Extends.refl env, hsend false⟩⟩

/-- A spec from `env'` holds from an earlier `env` that `env'` extends. -/
theorem Ensures.of_extends {α : Type} {m : BridgeM α}
    (h : Ensures m (fun _ env'' => Extends env' env'' ∧ ForwardsReported env'') env')
    (hext : Extends env env') :
    Ensures m (fun _ env'' => Extends env env'' ∧ ForwardsReported env'') env' :=
  h.mono fun _ _ ⟨h', f⟩ => ⟨hext.trans h', f⟩

end Invariant

/-! ## One spec per function -/

section Specs

variable {env : Env}

theorem getTransactionByVersion_ensures (version : UInt64) :
    Ensures (getTransactionByVersion version)
      (fun r env' => Frame env env' ∧ ∀ transaction, r = .ok transaction →
        Reported env' transaction) env := by
  simp only [getTransactionByVersion, ensures_bind, ensures_requestRpc, ensures_unwrap,
    RpcReply.transactions?_eq_some]
  refine ⟨fun reply h transactions ht => ?_, fun _ => by simpa using Frame.ask env _⟩
  subst ht
  cases transactions with
  | nil => simpa using Frame.ask env _
  | cons transaction rest => simpa using ⟨Frame.ask env _, .inl ⟨_, _, answered_ask h⟩⟩

/-- The check of `get_transaction_proof`: a proof it builds is one of the transaction, with the
epoch-change proof and ledger info the bridge holds and the blob of the node's account-state
proof. -/
theorem getTransactionProof_ensures (transaction : TransactionView) :
    Ensures (getTransactionProof transaction)
      (fun r env' => Frame env env' ∧ ∀ proof, r = .ok proof → Matches proof transaction ∧
        env.bridge.epochChangeProof = some proof.epochChangeProof ∧
        env.bridge.latestLi = some proof.ledgerInfoWithSignatures ∧
        ∃ address ledgerVersion, Answered env'
          (.getAccountStateWithProof address proof.version ledgerVersion)
          (.accountStateWithProof ⟨proof.transactionInfoHash, some proof.accountStateBlob⟩)) env := by
  simp only [getTransactionProof, ensures_bind, ensures_get, ensures_unwrap, ensures_requestRpc,
    RpcReply.accountStateWithProof?_eq_some]
  refine fun _ _ _ _ => ⟨fun _ h view hview blob hblob => ?_, fun _ => by simpa using Frame.ask env _⟩
  subst hview
  simp only [ensures_ite, ensures_bind, ensures_get, ensures_unwrap]
  split
  · simpa using Frame.ask env _
  · simp only [ensures_pure]
    refine fun _ hli _ hbytes _ hp => ⟨Frame.ask env _, ?_⟩
    rintro _ ⟨⟩
    obtain ⟨hash, _⟩ := view
    subst hblob
    exact ⟨⟨rfl, not_not.mp ‹_›, hbytes⟩, hp, hli, _, _, answered_ask h⟩

theorem syncTransactionWithProof_ensures (forwards : ForwardsReported env)
    {transaction : TransactionView} (reported : Reported env transaction)
    (accountAddress : String) :
    Ensures (syncTransactionWithProof transaction accountAddress)
      (fun _ env' => Extends env env' ∧ ForwardsReported env') env := by
  refine Ensures.bind_of (getTransactionProof_ensures transaction) ?_
  rintro (_ | proof) env₁ ⟨frame, hproof⟩
  · simpa using ⟨frame.1, forwards.of_frame frame⟩
  · obtain ⟨hmatch, hp, hli, haccount⟩ := hproof proof rfl
    have reported₁ : ProofReported env₁ proof :=
      ⟨⟨transaction, reported.mono frame.1, hmatch⟩, (forwards.held _ _ hp hli).mono frame.1,
        haccount⟩
    have forwards₁ (ok : Bool) :
        ForwardsReported { env₁ with sent := env₁.sent ++
          [(.verifyTransaction accountAddress proof, ok)] } :=
      (forwards.of_frame frame).send (fun _ _ h => by cases h; exact reported₁) ok
    simp only [ensures_bind, ensures_query]
    constructor <;> intros <;> simpa using ⟨frame.1, forwards₁ _⟩

theorem syncNewEvents_ensures (accountAddress : String) (events : List EventView)
    (forwards : ForwardsReported env) :
    Ensures (syncNewEvents accountAddress events)
      (fun _ env' => Extends env env' ∧ ForwardsReported env') env := by
  induction events generalizing env with
  | nil => simpa [syncNewEvents] using ⟨Extends.refl env, forwards⟩
  | cons event events ih =>
    refine Ensures.bind_of (getTransactionByVersion_ensures _) ?_
    rintro (_ | transaction) env₁ ⟨frame₁, reported⟩
    · exact (ih (forwards.of_frame frame₁)).of_extends frame₁.1
    · refine Ensures.bind_of (syncTransactionWithProof_ensures (forwards.of_frame frame₁)
        (reported transaction rfl) accountAddress) ?_
      rintro (_ | ⟨⟩) env₂ ⟨hext₂, forwards₂⟩
      · simpa using ⟨frame₁.1.trans hext₂, forwards₂⟩
      · exact (ih forwards₂).of_extends (frame₁.1.trans hext₂)

theorem syncTransactions_ensures (accountAddress : String) (transactions : List TransactionView)
    (forwards : ForwardsReported env) (reported : ∀ t ∈ transactions, Reported env t) :
    Ensures (syncTransactions accountAddress transactions)
      (fun _ env' => Extends env env' ∧ ForwardsReported env') env := by
  induction transactions generalizing env with
  | nil => simpa [syncTransactions] using ⟨Extends.refl env, forwards⟩
  | cons transaction transactions ih =>
    rw [List.forall_mem_cons] at reported
    refine Ensures.bind_of (syncTransactionWithProof_ensures forwards reported.1 accountAddress) ?_
    rintro (_ | ⟨⟩) env₁ ⟨hext₁, forwards₁⟩
    · simpa using ⟨hext₁, forwards₁⟩
    · exact (ih forwards₁ fun t ht => (reported.2 t ht).mono hext₁).of_extends hext₁

variable {ratchet : TrustedState → LedgerInfo → EpochChangeProof → Except String TrustedStateChange}

theorem verifyStateProof_ensures (li : LedgerInfo) (epochChangeProof : EpochChangeProof) :
    Ensures (verifyStateProof ratchet li epochChangeProof) (fun _ env' => Frame env env') env := by
  simp only [verifyStateProof, ensures_bind, ensures_get, ensures_unwrap, ensures_ite]
  intro trusted _
  split
  · simp [Frame, Extends]
  · rcases ratchet trusted li epochChangeProof with _ | ⟨_, eli⟩ | _ | _ <;> simp [Frame, Extends]

/-- `init_state` loads the epoch-change proof and ledger info of one state proof of the node. -/
theorem initState_ensures (forwards : ForwardsReported env) (withPr : Bool) :
    Ensures (initState ratchet withPr)
      (fun _ env' => Extends env env' ∧ ForwardsReported env') env := by
  simp only [initState, ensures_bind, ensures_requestRpc, ensures_unwrap, ensures_update]
  refine ⟨fun _ h ⟨epochChangeProof, li⟩ hreply _ _ _ _ => ?_, fun _ => by simpa using forwards.ask _⟩
  obtain rfl := RpcReply.stateProof?_eq_some.mp hreply
  refine (verifyStateProof_ensures li epochChangeProof).mono ?_
  rintro _ env₂ ⟨hext₂, hsent₂, hp₂, hli₂⟩
  have hext : Extends env env₂ := (Frame.ask env _).1.trans hext₂
  have forwards₂ : ForwardsReported env₂ := by
    refine ⟨fun p li' hp hli => ?_, fun address proof ok hmem => ?_⟩
    · obtain rfl := Option.some.inj (hp₂.symm.trans hp)
      obtain rfl := Option.some.inj (hli₂.symm.trans hli)
      exact (answered_ask h).mono hext₂
    · exact (forwards.forwarded address proof ok (by simpa [hsent₂] using hmem)).mono hext
  cases withPr
  · simpa using ⟨hext, forwards₂⟩
  · simp only [ensures_ite, ensures_bind]
    refine (query_ensures forwards₂ (by nofun)).mono ?_
    rintro (_ | ((_ | _) | _)) env₃ ⟨hext₃, forwards₃⟩ <;> simpa using ⟨hext.trans hext₃, forwards₃⟩

theorem loopThenRecord_ensures {loop : BridgeM (Except Error Unit)}
    {record : DiemBridge → DiemBridge}
    (hloop : Ensures loop (fun _ env' => Extends env env' ∧ ForwardsReported env') env)
    (hrecord : ∀ b, (record b).epochChangeProof = b.epochChangeProof ∧
      (record b).latestLi = b.latestLi) :
    Ensures (loopThenRecord loop record)
      (fun _ env' => Extends env env' ∧ ForwardsReported env') env := by
  refine Ensures.bind_of hloop ?_
  rintro (_ | ⟨⟨⟩⟩) env₁ ⟨hext₁, forwards₁⟩ <;>
    simp only [ensures_pure, ensures_bind, ensures_update]
  · exact ⟨hext₁, forwards₁⟩
  · exact ⟨hext₁, forwards₁.of_frame ⟨Extends.refl _, rfl, hrecord _⟩⟩

theorem syncAndRecord_ensures (forwards : ForwardsReported env) (needInit : Bool)
    {loop : BridgeM (Except Error Unit)} {record : DiemBridge → DiemBridge}
    (hloop : ∀ {env' : Env}, Extends env env' → ForwardsReported env' →
      Ensures loop (fun _ env'' => Extends env' env'' ∧ ForwardsReported env'') env')
    (hrecord : ∀ b, (record b).epochChangeProof = b.epochChangeProof ∧
      (record b).latestLi = b.latestLi) :
    Ensures (syncAndRecord ratchet needInit loop record)
      (fun _ env' => Extends env env' ∧ ForwardsReported env') env := by
  simp only [syncAndRecord, ensures_bind, ensures_ite]
  split
  · refine (initState_ensures forwards false).mono ?_
    rintro (_ | ⟨⟨⟩⟩) env₁ ⟨hext₁, forwards₁⟩
    · simpa using ⟨hext₁, forwards₁⟩
    · simp only [ensures_bind, ensures_pure]
      exact (loopThenRecord_ensures (hloop hext₁ forwards₁) hrecord).of_extends hext₁
  · simpa using loopThenRecord_ensures (hloop (Extends.refl env) forwards) hrecord

theorem syncReceivingTransactions_ensures (forwards : ForwardsReported env)
    (receivedEventsKey : String) (sequenceNumber : UInt64) (accountAddress : String)
    (stateInitiated : Bool) :
    Ensures (syncReceivingTransactions ratchet receivedEventsKey sequenceNumber accountAddress
        stateInitiated)
      (fun _ env' => Extends env env' ∧ ForwardsReported env') env := by
  have ask := forwards.ask [.getEvents receivedEventsKey 0 sequenceNumber]
  simp only [syncReceivingTransactions, ensures_bind, ensures_requestRpc]
  refine ⟨fun _ _ => ?_, fun _ => by simpa using ask⟩
  simp only [ensures_unwrap, ensures_get]
  exact fun _ _ => (syncAndRecord_ensures ask.2 _
    (fun _ forwards' => syncNewEvents_ensures _ _ forwards') (by exact fun _ => ⟨rfl, rfl⟩)).of_extends
    ask.1

/-- The transactions `sync_sent_transactions` syncs are of the account's listing, reported by
the node. -/
theorem syncSentTransactions_ensures (forwards : ForwardsReported env) (accountAddress : String)
    (stateInitiated : Bool) :
    Ensures (syncSentTransactions ratchet accountAddress stateInitiated)
      (fun _ env' => Extends env env' ∧ ForwardsReported env') env := by
  simp only [syncSentTransactions, ensures_bind, ensures_get, ensures_unwrap, ensures_requestRpc]
  intro account _
  have ask := forwards.ask [.getAccountTransactions account.address 0 account.sequenceNumber false]
  refine ⟨fun reply h => ?_, fun _ => by simpa using ask⟩
  simp only [ensures_unwrap, ensures_get, RpcReply.transactions?_eq_some]
  rintro transactions rfl
  refine (syncAndRecord_ensures ask.2 _ (fun hext forwards' => ?_)
    (by exact fun _ => ⟨rfl, rfl⟩)).of_extends ask.1
  refine syncTransactions_ensures _ _ forwards' fun t ht => Reported.mono (.inr ?_) hext
  exact ⟨_, _, _, answered_ask h, List.mem_of_mem_filter ht⟩

theorem syncAccount_ensures (forwards : ForwardsReported env) (accountAddress : String) :
    Ensures (syncAccount ratchet accountAddress)
      (fun _ env' => Extends env env' ∧ ForwardsReported env') env := by
  simp only [syncAccount, ensures_bind, ensures_requestRpc, ensures_unwrap]
  refine ⟨fun _ _ view? _ => ?_, fun _ => by simpa using forwards.ask _⟩
  have hext₁ := (Frame.ask env [.getAccount accountAddress]).1
  rcases view? with _ | view
  · simpa using forwards.ask _
  simp only [ensures_bind, ensures_update]
  refine (query_ensures (by exact (forwards.ask _).2.of_frame ⟨Extends.refl _, rfl, rfl, rfl⟩)
    (by nofun)).mono ?_
  rintro (_ | _) env₂ ⟨hext₂, forwards₂⟩ <;> simp only [ensures_pure, ensures_bind, ensures_ite]
  · exact ⟨hext₁.trans hext₂, forwards₂⟩
  have hext := hext₁.trans hext₂
  split
  · refine (syncReceivingTransactions_ensures forwards₂ _ _ _ _).mono ?_
    rintro (_ | ⟨⟨⟩⟩) env₃ ⟨hext₃, forwards₃⟩ <;> simp only [ensures_bind, ensures_pure]
    · exact ⟨hext.trans hext₃, forwards₃⟩
    · exact (syncSentTransactions_ensures forwards₃ _ _).of_extends (hext.trans hext₃)
  · exact (syncSentTransactions_ensures forwards₂ _ _).of_extends hext

theorem syncRounds_ensures (n : Nat) (forwards : ForwardsReported env) :
    Ensures (syncRounds ratchet n)
      (fun _ env' => Extends env env' ∧ ForwardsReported env') env := by
  induction n generalizing env with
  | zero => simpa [syncRounds] using ⟨Extends.refl env, forwards⟩
  | succ n ih =>
    refine Ensures.bind_of (syncAccount_ensures forwards aliceAddress) ?_
    exact fun _ _ ⟨hext₁, forwards₁⟩ => (ih forwards₁).of_extends hext₁

end Specs

/-! ## The loop forwards only what the node reported -/

/-- Whatever the node answers (it need not be honest), whatever pRuntime answers, whatever
`verify_and_ratchet` decides, and for every number of rounds: a run of the bridge that returns
keeps the invariant.  So from a start with nothing loaded and nothing sent
(`forwardsReported_new`), every `VerifyTransaction` query it sends carries a proof whose fields
are of answers the node gave in the run. -/
theorem bridge_forwardsReported (ratchet : TrustedState → LedgerInfo → EpochChangeProof →
      Except String TrustedStateChange) (n : Nat) {env : Env} (forwards : ForwardsReported env) :
    Ensures (bridge ratchet n) (fun _ env' => env'.rpc = env.rpc ∧ ForwardsReported env') env := by
  refine Ensures.bind_of (initState_ensures forwards true) ?_
  rintro (_ | ⟨⟨⟩⟩) env₁ ⟨hext₁, forwards₁⟩
  · simpa using ⟨hext₁.1, forwards₁⟩
  · simp only [ensures_bind, ensures_pure]
    exact (syncRounds_ensures n forwards₁).mono fun _ _ ⟨hext, f⟩ => ⟨hext.1.trans hext₁.1, f⟩

/-- Where start-up and one round over `steadyNode` end: the payment forwarded to pRuntime. -/
def steadyBridged : Env :=
  { steadyStart with
    bridge := ⟨some ⟨[genesisLedger]⟩, some ⟨0, ⟨1⟩⟩, some genesisLedger, some steadyLedger,
      some "sent", some "received", some [⟨5⟩], some [], some ⟨aliceAddress, none, 1⟩,
      some [⟨100, "XUS"⟩]⟩
    asked := [.getStateProof 0, .getAccount aliceAddress, .getEvents "received" 0 1,
      .getStateProof 0, .getTransactions 5 1 false, .getAccountStateWithProof aliceAddress 5 0,
      .getAccountTransactions aliceAddress 0 1 false]
    sent := [(.setTrustedState genesisLedger, true),
      (.accountData ⟨aliceAddress, none, 1, "sent", "received", [⟨100, "XUS"⟩]⟩, true),
      (.verifyTransaction aliceAddress ⟨[5], ⟨[genesisLedger]⟩, steadyLedger, "h5", [1], 5⟩, true)] }

/-- The first round from `steadyStarted` forwards the payment. -/
theorem syncAccount_steadyStarted :
    (syncAccount noChange aliceAddress).run steadyStarted = .ok (.ok (), steadyBridged) :=
  rfl

theorem bridge_forwardsReported_steadyNode :
    ForwardsReported steadyStart ∧
      (bridge noChange 1).run steadyStart = .ok (.ok (), steadyBridged) ∧
      ForwardsReported steadyBridged :=
  have forwards : ForwardsReported steadyStart := forwardsReported_new _ _ _
  have hrun : (bridge noChange 1).run steadyStart = .ok (.ok (), steadyBridged) :=
    bridge_run_of_initState initState_steadyStart (syncRounds_run_succ syncAccount_steadyStarted)
  ⟨forwards, hrun, (bridge_forwardsReported noChange 1 forwards _ _ hrun).2⟩

end Bridge

end Plibra
