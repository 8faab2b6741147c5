import Plibra.Bridge.Forwarding

/-!
# Plibra.Bridge.Trust — pRuntime accepts the trusted state before it hears anything else

`bridge` starts with `init_state` given the pRuntime client: it sends `SetTrustedState` with the
first ledger info of the node's state proof, and goes on only when pRuntime answers `true`.  The
later calls of `init_state`, from the two sync functions, are not given the client, so no round
sends `SetTrustedState` (`SendsNoTrust`, one spec per function).  Hence pRuntime hears
`SetTrustedState` once, first, and anything more only once it has accepted it.
-/

namespace Plibra

namespace Bridge

/-- Whether a query is `SetTrustedState`. -/
def QueryReqData.isSetTrustedState : QueryReqData → Bool
  | .setTrustedState _ => true
  | _ => false

/-- `sent'` is `sent` with queries appended, none of them `SetTrustedState`. -/
def SendsNoTrust (sent sent' : List (QueryReqData × Bool)) : Prop :=
  ∃ queries, sent' = sent ++ queries ∧ ∀ q ∈ queries, q.1.isSetTrustedState = false

section Steps

variable {sent sent' sent'' : List (QueryReqData × Bool)}

theorem SendsNoTrust.of_eq (h : sent' = sent) : SendsNoTrust sent sent' :=
  ⟨[], by simp [h], by simp⟩

theorem SendsNoTrust.trans (h : SendsNoTrust sent sent') (h' : SendsNoTrust sent' sent'') :
    SendsNoTrust sent sent'' := by
  obtain ⟨queries, rfl, hq⟩ := h
  obtain ⟨queries', rfl, hq'⟩ := h'
  exact ⟨queries ++ queries', List.append_assoc .., List.forall_mem_append.mpr ⟨hq, hq'⟩⟩

theorem SendsNoTrust.send {req : QueryReqData} (hreq : req.isSetTrustedState = false) (ok : Bool) :
    SendsNoTrust sent (sent ++ [(req, ok)]) :=
  ⟨[(req, ok)], rfl, by simpa using hreq⟩

end Steps

/-! ## No round sends `SetTrustedState` -/

section Rounds

variable {env : Env}

theorem query_sendsNoTrust {req : QueryReqData} (hreq : req.isSetTrustedState = false) :
    Ensures (query req) (fun _ env' => SendsNoTrust env.sent env'.sent) env :=
  ensures_query.mpr ⟨fun _ _ => .send hreq true, fun _ => .send hreq false⟩

theorem syncTransactionWithProof_sendsNoTrust (transaction : TransactionView)
    (accountAddress : String) :
    Ensures (syncTransactionWithProof transaction accountAddress)
      (fun _ env' => SendsNoTrust env.sent env'.sent) env := by
  refine Ensures.bind_of (getTransactionProof_ensures transaction) ?_
  rintro (_ | proof) env₁ ⟨frame, -⟩
  · simpa using SendsNoTrust.of_eq frame.2.1
  · refine Ensures.bind_of (query_sendsNoTrust rfl) ?_
    rintro (_ | _) env₂ h₂ <;> simpa using (SendsNoTrust.of_eq frame.2.1).trans h₂

theorem syncNewEvents_sendsNoTrust (accountAddress : String) (events : List EventView) :
    Ensures (syncNewEvents accountAddress events)
      (fun _ env' => SendsNoTrust env.sent env'.sent) env := by
  induction events generalizing env with
  | nil => simpa [syncNewEvents] using SendsNoTrust.of_eq rfl
  | cons event events ih =>
    refine Ensures.bind_of (getTransactionByVersion_ensures _) ?_
    rintro (_ | transaction) env₁ ⟨frame₁, -⟩
    · exact ih.mono fun _ _ h => (SendsNoTrust.of_eq frame₁.2.1).trans h
    · refine Ensures.bind_of (syncTransactionWithProof_sendsNoTrust transaction accountAddress) ?_
      have h₁ := SendsNoTrust.of_eq frame₁.2.1
      rintro (_ | ⟨⟩) env₂ h₂
      · simpa using h₁.trans h₂
      · exact ih.mono fun _ _ h => (h₁.trans h₂).trans h

theorem syncTransactions_sendsNoTrust (accountAddress : String)
    (transactions : List TransactionView) :
    Ensures (syncTransactions accountAddress transactions)
      (fun _ env' => SendsNoTrust env.sent env'.sent) env := by
  induction transactions generalizing env with
  | nil => simpa [syncTransactions] using SendsNoTrust.of_eq rfl
  | cons transaction transactions ih =>
    refine Ensures.bind_of (syncTransactionWithProof_sendsNoTrust transaction accountAddress) ?_
    rintro (_ | ⟨⟩) env₁ h₁
    · simpa using h₁
    · exact ih.mono fun _ _ h => h₁.trans h

variable (ratchet : TrustedState → LedgerInfo → EpochChangeProof → Except String TrustedStateChange)

/-- `verify_state_proof` asks and sends nothing, and the world stays as it was. -/
theorem verifyStateProof_world (li : LedgerInfo) (epochChangeProof : EpochChangeProof) :
    Ensures (verifyStateProof ratchet li epochChangeProof)
      (fun _ env' => env'.pruntime = env.pruntime ∧ env'.sent = env.sent) env := by
  simp only [verifyStateProof, ensures_bind, ensures_get, ensures_unwrap, ensures_ite]
  intro trusted _
  split
  · simp
  · rcases ratchet trusted li epochChangeProof with _ | ⟨_, eli⟩ | _ | _ <;> simp

/-- `init_state` without the client sends pRuntime nothing. -/
theorem initState_silent :
    Ensures (initState ratchet false) (fun _ env' => env'.sent = env.sent) env := by
  simp only [initState, ensures_bind, ensures_requestRpc, ensures_unwrap, ensures_update]
  refine ⟨fun _ _ ⟨epochChangeProof, li⟩ _ _ _ _ _ => ?_, fun _ => by simp⟩
  refine (verifyStateProof_world ratchet li epochChangeProof).mono ?_
  rintro _ env₂ ⟨-, hsent₂⟩
  simpa using hsent₂

theorem initState_sendsNoTrust :
    Ensures (initState ratchet false) (fun _ env' => SendsNoTrust env.sent env'.sent) env :=
  (initState_silent ratchet).mono fun _ _ => .of_eq

theorem loopThenRecord_sendsNoTrust {loop : BridgeM (Except Error Unit)}
    {record : DiemBridge → DiemBridge}
    (hloop : Ensures loop (fun _ env' => SendsNoTrust env.sent env'.sent) env) :
    Ensures (loopThenRecord loop record) (fun _ env' => SendsNoTrust env.sent env'.sent) env := by
  refine Ensures.bind_of hloop ?_
  rintro (_ | ⟨⟨⟩⟩) env₁ h₁ <;> simpa using h₁

theorem syncAndRecord_sendsNoTrust (needInit : Bool) {loop : BridgeM (Except Error Unit)}
    {record : DiemBridge → DiemBridge}
    (hloop : ∀ {env : Env}, Ensures loop (fun _ env' => SendsNoTrust env.sent env'.sent) env) :
    Ensures (syncAndRecord ratchet needInit loop record)
      (fun _ env' => SendsNoTrust env.sent env'.sent) env := by
  simp only [syncAndRecord, ensures_bind, ensures_ite]
  split
  · refine (initState_sendsNoTrust ratchet).mono ?_
    rintro (_ | ⟨⟨⟩⟩) env₁ h₁
    · simpa using h₁
    · simp only [ensures_bind, ensures_pure]
      exact (loopThenRecord_sendsNoTrust hloop).mono fun _ _ h => h₁.trans h
  · simpa using loopThenRecord_sendsNoTrust hloop

theorem syncReceivingTransactions_sendsNoTrust (receivedEventsKey : String)
    (sequenceNumber : UInt64) (accountAddress : String) (stateInitiated : Bool) :
    Ensures (syncReceivingTransactions ratchet receivedEventsKey sequenceNumber accountAddress
        stateInitiated)
      (fun _ env' => SendsNoTrust env.sent env'.sent) env := by
  simp only [syncReceivingTransactions, ensures_bind, ensures_requestRpc]
  refine ⟨fun _ _ => ?_, fun _ => by simpa using SendsNoTrust.of_eq rfl⟩
  simp only [ensures_unwrap, ensures_get]
  exact fun _ _ => syncAndRecord_sendsNoTrust ratchet _ (syncNewEvents_sendsNoTrust _ _)

theorem syncSentTransactions_sendsNoTrust (accountAddress : String) (stateInitiated : Bool) :
    Ensures (syncSentTransactions ratchet accountAddress stateInitiated)
      (fun _ env' => SendsNoTrust env.sent env'.sent) env := by
  simp only [syncSentTransactions, ensures_bind, ensures_get, ensures_unwrap, ensures_requestRpc]
  refine fun _ _ => ⟨fun _ _ _ _ => ?_, fun _ => by simpa using SendsNoTrust.of_eq rfl⟩
  exact syncAndRecord_sendsNoTrust ratchet _ (syncTransactions_sendsNoTrust _ _)

theorem syncAccount_sendsNoTrust (accountAddress : String) :
    Ensures (syncAccount ratchet accountAddress)
      (fun _ env' => SendsNoTrust env.sent env'.sent) env := by
  simp only [syncAccount, ensures_bind, ensures_requestRpc, ensures_unwrap]
  refine ⟨fun _ _ view? _ => ?_, fun _ => by simpa using SendsNoTrust.of_eq rfl⟩
  rcases view? with _ | view
  · simpa using SendsNoTrust.of_eq rfl
  simp only [ensures_bind, ensures_update]
  refine Ensures.mono (query_sendsNoTrust (by rfl)) ?_
  rintro (_ | _) env₂ h₂ <;> simp only [ensures_pure, ensures_bind, ensures_ite]
  · exact h₂
  split
  · refine (syncReceivingTransactions_sendsNoTrust ratchet _ _ _ _).mono ?_
    rintro (_ | ⟨⟨⟩⟩) env₃ h₃ <;> simp only [ensures_bind, ensures_pure]
    · exact h₂.trans h₃
    · exact (syncSentTransactions_sendsNoTrust ratchet _ _).mono fun _ _ h => (h₂.trans h₃).trans h
  · exact (syncSentTransactions_sendsNoTrust ratchet _ _).mono fun _ _ h => h₂.trans h

theorem syncRounds_sendsNoTrust (n : Nat) :
    Ensures (syncRounds ratchet n) (fun _ env' => SendsNoTrust env.sent env'.sent) env := by
  induction n generalizing env with
  | zero => simpa [syncRounds] using SendsNoTrust.of_eq rfl
  | succ n ih =>
    refine Ensures.bind_of (syncAccount_sendsNoTrust ratchet aliceAddress) ?_
    exact fun _ _ h₁ => ih.mono fun _ _ h => h₁.trans h

end Rounds

/-! ## Start-up, then the rounds -/

section Start

variable {env : Env}
  (ratchet : TrustedState → LedgerInfo → EpochChangeProof → Except String TrustedStateChange)

/-- `init_state` with the client sends pRuntime at most `SetTrustedState`, and returns `Ok` only
when pRuntime accepted, with status `true`, the first ledger info of the node's state proof. -/
theorem initState_trusts :
    Ensures (initState ratchet true) (fun r env' =>
      (r = .ok () → ∃ li, env'.sent = env.sent ++ [(.setTrustedState li, true)] ∧
        env.pruntime env.sent (.setTrustedState li) = some (.setTrustedState true) ∧
        ∃ epochChangeProof ledgerInfo,
          env.rpc env.asked (.getStateProof 0) = some (.stateProof epochChangeProof ledgerInfo) ∧
          epochChangeProof.ledgerInfoWithSigs.head? = some li) ∧
      env'.sent.length ≤ env.sent.length + 1) env := by
  simp only [initState, ensures_bind, ensures_requestRpc]
  refine ⟨fun reply h => ?_, fun _ => ensures_pure.mpr ⟨nofun, Nat.le_succ _⟩⟩
  simp only [ensures_unwrap, ensures_update]
  rintro ⟨epochChangeProof, li⟩ hreply zero hzero _ _
  obtain rfl := RpcReply.stateProof?_eq_some.mp hreply
  refine (verifyStateProof_world ratchet li epochChangeProof).mono ?_
  rintro _ env₂ ⟨hpr₂, hsent₂⟩
  simp only [ensures_ite, ensures_bind, ensures_query, hpr₂, hsent₂, if_true]
  have hlen (ok : Bool) :
      (env.sent ++ [(QueryReqData.setTrustedState zero, ok)]).length ≤ env.sent.length + 1 := by simp
  refine ⟨fun resp hresp => ?_, fun _ => ensures_pure.mpr ⟨nofun, hlen false⟩⟩
  rcases resp with (_ | _) | _
  · exact ensures_pure.mpr ⟨nofun, hlen true⟩
  · exact ensures_bind.mpr (ensures_pure.mpr (ensures_pure.mpr
      ⟨fun _ => ⟨zero, rfl, hresp, _, _, h, hzero⟩, hlen true⟩))
  · exact ensures_pure.mpr ⟨nofun, hlen true⟩

/-- What pRuntime hears in a run of the bridge from `env` that returns `r` in `env'`: when the
bridge starts (`r` is `Ok`), first `SetTrustedState` with the first ledger info of the node's
state proof, which pRuntime accepted with status `true`, and no `SetTrustedState` after it; when
it does not, at most that one query. -/
def TrustsFirst (env : Env) (r : Except Error Unit) (env' : Env) : Prop :=
  (r = .ok () → ∃ li rest, env'.sent = (.setTrustedState li, true) :: rest ∧
    env.pruntime [] (.setTrustedState li) = some (.setTrustedState true) ∧
    (∃ epochChangeProof ledgerInfo,
      env.rpc env.asked (.getStateProof 0) = some (.stateProof epochChangeProof ledgerInfo) ∧
      epochChangeProof.ledgerInfoWithSigs.head? = some li) ∧
    ∀ q ∈ rest, q.1.isSetTrustedState = false) ∧
  (r ≠ .ok () → env'.sent.length ≤ 1)

/-- **pRuntime trusts the ledger before it hears anything else.**  Whatever the node and pRuntime
answer, for every number of rounds, a run of the bridge from a pRuntime that has heard nothing
sends `SetTrustedState` once and first, and sends anything more only once pRuntime has accepted
it. -/
theorem bridge_trustsFirst (n : Nat) (fresh : env.sent = []) :
    Ensures (bridge ratchet n) (TrustsFirst env) env := by
  refine Ensures.bind_of (initState_trusts ratchet) ?_
  rintro (_ | ⟨⟨⟩⟩) env₁ ⟨hok, hlen⟩
  · simpa [TrustsFirst, fresh] using hlen
  obtain ⟨li, hsent₁, hpr, hproof⟩ := hok rfl
  simp only [ensures_bind, ensures_pure]
  refine (syncRounds_sendsNoTrust ratchet n).mono ?_
  rintro _ env₂ ⟨queries, hsent₂, hq⟩
  refine ⟨fun _ => ⟨li, queries, by rw [hsent₂, hsent₁, fresh]; rfl, fresh ▸ hpr, hproof, hq⟩,
    fun h => absurd rfl h⟩

theorem bridge_trustsFirst_steadyNode :
    steadyStart.sent = [] ∧
      (bridge noChange 1).run steadyStart = .ok (.ok (), steadyBridged) ∧
      TrustsFirst steadyStart (.ok ()) steadyBridged :=
  have hrun : (bridge noChange 1).run steadyStart = .ok (.ok (), steadyBridged) :=
    bridge_run_of_initState initState_steadyStart (syncRounds_run_succ syncAccount_steadyStarted)
  ⟨rfl, hrun, bridge_trustsFirst noChange 1 rfl _ _ hrun⟩

end Start

end Bridge

end Plibra
