import Plibra.Bridge.Rounds
import Plibra.Bridge.Trust

/-!
# Plibra.Bridge.Retry — what pRuntime rejects is forwarded again

`sync_transaction_with_proof` passes an `Err` of pRuntime on with `?`, the loops over new events
and transactions stop at the first `Err`, and the listing is written only after a loop that ran
to its end.  So each sync function returns `Ok` only if pRuntime accepted every query it sent
(`AcceptedSince`), and when it fails it leaves the listing as it was: a transaction pRuntime
rejects is not recorded, and the next round forwards it again.  A transaction the node fails to
give is recorded all the same.
-/

namespace Plibra

namespace Bridge

/-- `sent'` is `sent` with queries appended, each accepted by pRuntime. -/
def AcceptedSince (sent sent' : List (QueryReqData × Bool)) : Prop :=
  ∃ queries, sent' = sent ++ queries ∧ ∀ q ∈ queries, q.2 = true

section Accepted

variable {sent sent' sent'' : List (QueryReqData × Bool)}

theorem AcceptedSince.of_eq (h : sent' = sent) : AcceptedSince sent sent' :=
  ⟨[], by simp [h], by simp⟩

theorem AcceptedSince.trans (h : AcceptedSince sent sent') (h' : AcceptedSince sent' sent'') :
    AcceptedSince sent sent'' := by
  obtain ⟨queries, rfl, hq⟩ := h
  obtain ⟨queries', rfl, hq'⟩ := h'
  exact ⟨queries ++ queries', List.append_assoc .., List.forall_mem_append.mpr ⟨hq, hq'⟩⟩

theorem AcceptedSince.accept (req : QueryReqData) : AcceptedSince sent (sent ++ [(req, true)]) :=
  ⟨[(req, true)], rfl, by simp⟩

end Accepted

/-- What a sync function leaves: `Ok` only if pRuntime accepted every query it sent, and on
failure the listing as it was, so that what it failed to forward is new again next round. -/
def Retries (env : Env) (r : Except Error Unit) (env' : Env) : Prop :=
  (r = .ok () → AcceptedSince env.sent env'.sent) ∧
    (r ≠ .ok () → env'.bridge.listing = env.bridge.listing)

section Specs

variable {env : Env}

theorem syncTransactionWithProof_retry (transaction : TransactionView) (accountAddress : String) :
    Ensures (syncTransactionWithProof transaction accountAddress)
      (fun r env' => r = .ok () → AcceptedSince env.sent env'.sent) env := by
  refine Ensures.bind_of (getTransactionProof_ensures transaction) ?_
  rintro (_ | proof) env₁ ⟨frame, -⟩
  · simpa using AcceptedSince.of_eq frame.2.1
  · simp only [ensures_bind, ensures_query]
    refine ⟨fun _ _ => ?_, fun _ => by simp⟩
    simpa using (AcceptedSince.of_eq frame.2.1).trans (.accept _)

theorem syncNewEvents_retry (accountAddress : String) (events : List EventView) :
    Ensures (syncNewEvents accountAddress events)
      (fun r env' => r = .ok () → AcceptedSince env.sent env'.sent) env := by
  induction events generalizing env with
  | nil => simpa [syncNewEvents] using AcceptedSince.of_eq rfl
  | cons event events ih =>
    refine Ensures.bind_of (getTransactionByVersion_ensures _) ?_
    rintro (_ | transaction) env₁ ⟨frame₁, -⟩
    · exact ih.mono fun _ _ h hr => (AcceptedSince.of_eq frame₁.2.1).trans (h hr)
    · refine Ensures.bind_of (syncTransactionWithProof_retry transaction accountAddress) ?_
      rintro (_ | ⟨⟨⟩⟩) env₂ h₂
      · simp
      · exact ih.mono fun _ _ h hr =>
          ((AcceptedSince.of_eq frame₁.2.1).trans (h₂ rfl)).trans (h hr)

theorem syncTransactions_retry (accountAddress : String) (transactions : List TransactionView) :
    Ensures (syncTransactions accountAddress transactions)
      (fun r env' => r = .ok () → AcceptedSince env.sent env'.sent) env := by
  induction transactions generalizing env with
  | nil => simpa [syncTransactions] using AcceptedSince.of_eq rfl
  | cons transaction transactions ih =>
    refine Ensures.bind_of (syncTransactionWithProof_retry transaction accountAddress) ?_
    rintro (_ | ⟨⟨⟩⟩) env₁ h₁
    · simp
    · exact ih.mono fun _ _ h hr => (h₁ rfl).trans (h hr)

variable {ratchet : TrustedState → LedgerInfo → EpochChangeProof → Except String TrustedStateChange}
  {loop : BridgeM (Except Error Unit)} {record : DiemBridge → DiemBridge}

/-- The record is written only after a loop that returned `Ok`. -/
theorem loopThenRecord_retry
    (hkeep : Ensures loop (fun _ env' => env'.rpc = env.rpc ∧ env'.bridge = env.bridge) env)
    (hloop : Ensures loop (fun r env' => r = .ok () → AcceptedSince env.sent env'.sent) env) :
    Ensures (loopThenRecord loop record)
      (fun r env' => (r = .ok () → AcceptedSince env.sent env'.sent) ∧
        (r ≠ .ok () → env'.bridge = env.bridge)) env := by
  refine Ensures.bind_of (hkeep.and hloop) ?_
  rintro (_ | ⟨⟨⟩⟩) env₁ ⟨⟨-, hb₁⟩, h₁⟩
  · simpa using hb₁
  · simpa using h₁ rfl

theorem syncAndRecord_retry (needInit : Bool)
    (hkeep : ∀ {env : Env},
      Ensures loop (fun _ env' => env'.rpc = env.rpc ∧ env'.bridge = env.bridge) env)
    (hloop : ∀ {env : Env},
      Ensures loop (fun r env' => r = .ok () → AcceptedSince env.sent env'.sent) env) :
    Ensures (syncAndRecord ratchet needInit loop record) (Retries env) env := by
  simp only [syncAndRecord, ensures_bind, ensures_ite]
  split
  · refine ((initState_listing false).and (initState_silent ratchet)).mono ?_
    rintro (_ | ⟨⟨⟩⟩) env₁ ⟨⟨-, hl₁⟩, hsent₁⟩
    · simpa [Retries] using hl₁
    · simp only [ensures_bind, ensures_pure]
      refine (loopThenRecord_retry hkeep hloop).mono fun _ _ ⟨hok, hfail⟩ => ⟨fun hr => ?_, ?_⟩
      · exact (AcceptedSince.of_eq hsent₁).trans (hok hr)
      · exact fun hr => by rw [hfail hr, hl₁]
  · simpa using (loopThenRecord_retry hkeep hloop).mono fun _ _ ⟨hok, hfail⟩ =>
      (⟨hok, fun hr => congrArg DiemBridge.listing (hfail hr)⟩ : Retries env _ _)

theorem syncReceivingTransactions_retry (receivedEventsKey : String) (sequenceNumber : UInt64)
    (accountAddress : String) (stateInitiated : Bool) :
    Ensures (syncReceivingTransactions ratchet receivedEventsKey sequenceNumber accountAddress
      stateInitiated) (Retries env) env := by
  simp only [syncReceivingTransactions, ensures_bind, ensures_requestRpc]
  refine ⟨fun _ _ => ?_, fun _ => by simp [Retries]⟩
  simp only [ensures_unwrap, ensures_get]
  exact fun _ _ => syncAndRecord_retry _ (syncNewEvents_keeps _ _) (syncNewEvents_retry _ _)

theorem syncSentTransactions_retry (accountAddress : String) (stateInitiated : Bool) :
    Ensures (syncSentTransactions ratchet accountAddress stateInitiated) (Retries env) env := by
  simp only [syncSentTransactions, ensures_bind, ensures_get, ensures_unwrap, ensures_requestRpc]
  refine fun _ _ => ⟨fun _ _ _ _ => ?_, fun _ => by simp [Retries]⟩
  exact syncAndRecord_retry _ (syncTransactions_keeps _ _) (syncTransactions_retry _ _)

/-- `sync_receiving_transactions` writes only the event listing, whatever it returns. -/
theorem syncReceivingTransactions_transactions (receivedEventsKey : String)
    (sequenceNumber : UInt64) (accountAddress : String) (stateInitiated : Bool) :
    Ensures (syncReceivingTransactions ratchet receivedEventsKey sequenceNumber accountAddress
      stateInitiated) (fun _ env' => env'.bridge.transactions = env.bridge.transactions) env := by
  simp only [syncReceivingTransactions, ensures_bind, ensures_requestRpc]
  refine ⟨fun _ _ => ?_, fun _ => by simp⟩
  simp only [ensures_unwrap, ensures_get]
  refine fun _ _ => ((syncAndRecord_listing _ (syncNewEvents_keeps _ _)).and
    (syncAndRecord_retry _ (syncNewEvents_keeps _ _) (syncNewEvents_retry _ _))).mono ?_
  rintro r env' ⟨⟨-, hok⟩, -, hfail⟩
  by_cases hr : r = .ok ()
  · obtain ⟨b, hb, heq⟩ := hok hr
    rw [heq]
    exact congrArg Listing.transactions hb
  · exact congrArg Listing.transactions (hfail hr)

/-- A round returns `Ok` only if pRuntime accepted every query it sent, and a round that fails
leaves the transaction listing as it was. -/
theorem syncAccount_retry (accountAddress : String) :
    Ensures (syncAccount ratchet accountAddress)
      (fun r env' => (r = .ok () → AcceptedSince env.sent env'.sent) ∧
        (r ≠ .ok () → env'.bridge.transactions = env.bridge.transactions)) env := by
  simp only [syncAccount, ensures_bind, ensures_requestRpc, ensures_unwrap]
  refine ⟨fun _ _ view? _ => ?_, fun _ => by simp⟩
  rcases view? with _ | view
  · simpa using AcceptedSince.of_eq rfl
  simp only [ensures_bind, ensures_update, ensures_query]
  refine ⟨fun _ _ => ?_, fun _ => by simp⟩
  simp only [ensures_pure, ensures_bind, ensures_ite]
  split
  · refine ((syncReceivingTransactions_retry _ _ _ _).and
      (syncReceivingTransactions_transactions _ _ _ _)).mono ?_
    rintro (_ | ⟨⟨⟩⟩) env₃ ⟨⟨h₃, -⟩, ht₃⟩ <;> simp only [ensures_bind, ensures_pure]
    · simpa using ht₃
    · exact (syncSentTransactions_retry _ _).mono fun _ _ ⟨h, hfail⟩ =>
        ⟨fun hr => ((AcceptedSince.accept _).trans (h₃ rfl)).trans (h hr),
          fun hr => (congrArg Listing.transactions (hfail hr)).trans ht₃⟩
  · exact (syncSentTransactions_retry _ _).mono fun _ _ ⟨h, hfail⟩ =>
      ⟨fun hr => (AcceptedSince.accept _).trans (h hr),
        fun hr => congrArg Listing.transactions (hfail hr)⟩

/-- **What pRuntime rejects is forwarded again.**  For whatever the node and pRuntime answer,
`sync_receiving_transactions` and `sync_sent_transactions` return `Ok` only if pRuntime accepted
every query they sent, and when they fail they leave the listing as it was; a round returns
`Ok` only if every query it sent was accepted, and a round that fails leaves the transaction
listing as it was. -/
theorem sync_recordsOnlyAccepted (receivedEventsKey : String) (sequenceNumber : UInt64)
    (accountAddress : String) (stateInitiated : Bool) :
    Ensures (syncReceivingTransactions ratchet receivedEventsKey sequenceNumber accountAddress
        stateInitiated) (Retries env) env ∧
    Ensures (syncSentTransactions ratchet accountAddress stateInitiated) (Retries env) env ∧
    Ensures (syncAccount ratchet accountAddress)
      (fun r env' => (r = .ok () → AcceptedSince env.sent env'.sent) ∧
        (r ≠ .ok () → env'.bridge.transactions = env.bridge.transactions)) env :=
  ⟨syncReceivingTransactions_retry _ _ _ _, syncSentTransactions_retry _ _,
    syncAccount_retry _⟩

end Specs

end Bridge

end Plibra
