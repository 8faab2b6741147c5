import Plibra.Bridge.Sync

/-!
# Plibra.Bridge.Returns — the bridge does not panic on a well-formed node

`main.rs` unwraps every decode of a node reply, the first ledger info of a state proof and its
`TrustedState::try_from`, the account-state blob and the transaction bytes, and the fields of
`DiemBridge` that `init_state` and `sync_account` set.  None of these panics when every answer of
the node fits its request (`Honest`) and `verify_and_ratchet` hands back epoch-change ledger infos
that carry the next validator set (`RatchetSound`).  `Returns m post env` is the weakest
precondition of `post` for total correctness, with one `@[simp]` rule per primitive of `BridgeM`
and one spec lemma per function.
-/

namespace Plibra

namespace Bridge

/-! ## Runs that return -/

section Calculus

variable {α β : Type} {post : α → Env → Prop} {env : Env}

theorem run_bind_ok {m : BridgeM α} {k : α → BridgeM β} {env' : Env} {r : β}
    (h : (m >>= k).run env = .ok (r, env')) :
    ∃ a env₁, m.run env = .ok (a, env₁) ∧ (k a).run env₁ = .ok (r, env') := by
  rw [StateT.run_bind] at h
  rcases hm : m.run env with e | ⟨a, env₁⟩ <;> rw [hm] at h
  · cases h
  · exact ⟨a, env₁, rfl, h⟩

/-- `m`, run from `env`, returns (it does not panic) with a value and an `Env` satisfying
`post`. -/
def Returns (m : BridgeM α) (post : α → Env → Prop) (env : Env) : Prop :=
  ∃ a env', m.run env = .ok (a, env') ∧ post a env'

theorem returns_of_run {m : BridgeM α} {a : α} {env' : Env} (h : m.run env = .ok (a, env')) :
    Returns m post env ↔ post a env' := by
  simp only [Returns, h, Except.ok.injEq, Prod.mk.injEq]
  exact ⟨fun ⟨_, _, ⟨ha, he⟩, hp⟩ => ha ▸ he ▸ hp, fun hp => ⟨_, _, ⟨rfl, rfl⟩, hp⟩⟩

@[simp] theorem returns_pure {a : α} : Returns (pure a) post env ↔ post a env :=
  returns_of_run rfl

@[simp] theorem returns_bind {m : BridgeM β} {k : β → BridgeM α} :
    Returns (m >>= k) post env ↔ Returns m (fun b env' => Returns (k b) post env') env := by
  constructor
  · rintro ⟨a, env', h, hpost⟩
    obtain ⟨b, env₁, hm, hk⟩ := run_bind_ok h
    exact ⟨b, env₁, hm, a, env', hk, hpost⟩
  · rintro ⟨b, env₁, hm, a, env', hk, hpost⟩
    exact ⟨a, env', by rw [StateT.run_bind, hm]; exact hk, hpost⟩

@[simp] theorem returns_map {m : BridgeM β} {f : β → α} :
    Returns (f <$> m) post env ↔ Returns m (fun b => post (f b)) env := by
  rw [map_eq_pure_bind, returns_bind]
  simp only [Function.comp, returns_pure]

@[simp] theorem returns_get {post : Env → Env → Prop} :
    Returns (get : BridgeM Env) post env ↔ post env env :=
  returns_of_run rfl

@[simp] theorem returns_update {post : Unit → Env → Prop} {f : DiemBridge → DiemBridge} :
    Returns (update f) post env ↔ post () { env with bridge := f env.bridge } :=
  returns_of_run rfl

@[simp] theorem returns_expect {msg : String} {o : Option α} :
    Returns (expect msg o) post env ↔ ∃ a, o = some a ∧ post a env := by
  cases o with
  | none => exact ⟨fun ⟨_, _, h, _⟩ => Except.noConfusion h, fun ⟨_, h, _⟩ => Option.noConfusion h⟩
  | some a => simp only [expect, returns_pure, Option.some.injEq, exists_eq_left']

@[simp] theorem returns_unwrap {o : Option α} :
    Returns (unwrap o) post env ↔ ∃ a, o = some a ∧ post a env :=
  returns_expect

@[simp] theorem returns_requestRpc {post : Except Error RpcReply → Env → Prop}
    {request : RpcRequest} :
    Returns (requestRpc request) post env ↔
      (∀ reply, env.rpc env.asked request = some reply →
        post (.ok reply) { env with asked := env.asked ++ [request] }) ∧
      (env.rpc env.asked request = none →
        post (.error .failedToGetResponse) { env with asked := env.asked ++ [request] }) := by
  simp only [Returns, requestRpc, StateT.run]
  cases env.rpc env.asked request <;> simp [and_assoc]

@[simp] theorem returns_query {post : Except Error QueryRespData → Env → Prop}
    {req : QueryReqData} :
    Returns (query req) post env ↔
      (∀ resp, env.pruntime env.sent req = some resp →
        post (.ok resp) { env with sent := env.sent ++ [(req, true)] }) ∧
      (env.pruntime env.sent req = none →
        post (.error .query) { env with sent := env.sent ++ [(req, false)] }) := by
  simp only [Returns, query, StateT.run]
  cases env.pruntime env.sent req <;> simp [and_assoc]

@[simp] theorem returns_ite {c : Prop} [Decidable c] {m m' : BridgeM α} :
    Returns (if c then m else m') post env ↔ if c then Returns m post env else Returns m' post env := by
  split <;> rfl

theorem Returns.mono {m : BridgeM α} {post' : α → Env → Prop} (h : Returns m post env)
    (hpost : ∀ a env', post a env' → post' a env') : Returns m post' env :=
  let ⟨a, env', hrun, ha⟩ := h
  ⟨a, env', hrun, hpost a env' ha⟩

/-- The rule callers use: a callee's spec, then the rest of the caller from every state the spec
allows. -/
theorem Returns.bind_of {m : BridgeM β} {k : β → BridgeM α} {pre : β → Env → Prop}
    (hm : Returns m pre env) (hk : ∀ b env', pre b env' → Returns (k b) post env') :
    Returns (m >>= k) post env :=
  returns_bind.mpr (hm.mono hk)

end Calculus

/-! ## What start-up sets -/

/-- What `init_state` sets: the trusted state, the latest ledger info and its epoch-change
proof. -/
def Started (b : DiemBridge) : Prop :=
  b.trustedState.isSome ∧ b.latestLi.isSome ∧ b.epochChangeProof.isSome

/-- `Started`, and the account `sync_account` has read. -/
def Ready (b : DiemBridge) : Prop :=
  Started b ∧ b.account.isSome

/-- `b'` keeps what start-up set in `b`, and `b`'s account. -/
def Keeps (b b' : DiemBridge) : Prop :=
  (Started b → Started b') ∧ b'.account = b.account

theorem Keeps.refl (b : DiemBridge) : Keeps b b :=
  ⟨id, rfl⟩

theorem Keeps.trans {b b' b'' : DiemBridge} (h : Keeps b b') (h' : Keeps b' b'') : Keeps b b'' :=
  ⟨h'.1 ∘ h.1, h'.2.trans h.2⟩

theorem Keeps.of_fields {b b' : DiemBridge} (trusted : b'.trustedState.isSome)
    (li : b'.latestLi = b.latestLi) (proof : b'.epochChangeProof = b.epochChangeProof)
    (account : b'.account = b.account) : Keeps b b' :=
  ⟨fun ⟨_, hli, hproof⟩ => ⟨trusted, li ▸ hli, proof ▸ hproof⟩, account⟩

theorem Keeps.of_eq {b b' : DiemBridge} (trusted : b'.trustedState = b.trustedState)
    (li : b'.latestLi = b.latestLi) (proof : b'.epochChangeProof = b.epochChangeProof)
    (account : b'.account = b.account) : Keeps b b' :=
  ⟨fun ⟨hts, hli, hproof⟩ => ⟨trusted ▸ hts, li ▸ hli, proof ▸ hproof⟩, account⟩

theorem Keeps.ready {b b' : DiemBridge} (h : Keeps b b') (ready : Ready b) : Ready b' :=
  ⟨h.1 ready.1, h.2 ▸ ready.2⟩

/-- `verify_and_ratchet` hands back, on an epoch change, a ledger info that carries the next
epoch's validators, as a ledger info that ends an epoch does. -/
def RatchetSound
    (ratchet : TrustedState → LedgerInfo → EpochChangeProof → Except String TrustedStateChange) :
    Prop :=
  ∀ trusted li epochChangeProof newState latestEpochChangeLi,
    ratchet trusted li epochChangeProof = .ok (.epoch newState latestEpochChangeLi) →
      latestEpochChangeLi.nextEpochState.isSome

/-! ## One spec per function -/

section Specs

variable {env : Env}

/-- A transaction the node gives has bytes that decode. -/
theorem getTransactionByVersion_returns (honest : Honest env.rpc) (version : UInt64) :
    Returns (getTransactionByVersion version)
      (fun r env' => Honest env'.rpc ∧ env'.bridge = env.bridge ∧
        ∀ t, r = .ok t → t.bytes.isSome) env := by
  simp only [getTransactionByVersion, returns_bind, returns_requestRpc]
  refine ⟨fun reply h => ?_, fun _ => by simpa⟩
  obtain ⟨transactions, ht, hbytes⟩ := honest _ _ _ h
  simp only [ht, returns_unwrap, Option.some.injEq, exists_eq_left']
  cases transactions with
  | nil => simpa
  | cons t _ => simpa using ⟨honest, hbytes t (List.mem_cons_self _ _)⟩

theorem getTransactionProof_returns (honest : Honest env.rpc) (ready : Ready env.bridge)
    {transaction : TransactionView} (bytes : transaction.bytes.isSome) :
    Returns (getTransactionProof transaction)
      (fun _ env' => Honest env'.rpc ∧ env'.bridge = env.bridge) env := by
  obtain ⟨⟨hts, hli, hproof⟩, hacc⟩ := ready
  obtain ⟨account, hacc⟩ := Option.isSome_iff_exists.mp hacc
  obtain ⟨trusted, hts⟩ := Option.isSome_iff_exists.mp hts
  obtain ⟨li, hli⟩ := Option.isSome_iff_exists.mp hli
  obtain ⟨proof, hproof⟩ := Option.isSome_iff_exists.mp hproof
  obtain ⟨transactionBytes, hbytes⟩ := Option.isSome_iff_exists.mp bytes
  simp only [getTransactionProof, returns_bind, returns_get, returns_unwrap, hacc, hts,
    Option.some.injEq, exists_eq_left', returns_requestRpc]
  refine ⟨fun reply h => ?_, fun _ => by simpa⟩
  obtain ⟨view, hview, hblob⟩ := honest _ _ _ h
  obtain ⟨blob, hblob⟩ := Option.isSome_iff_exists.mp hblob
  simp only [hview, hblob, returns_unwrap, Option.some.injEq, exists_eq_left', returns_ite]
  split <;> simpa [hli, hbytes, hproof]

theorem syncTransactionWithProof_returns (honest : Honest env.rpc) (ready : Ready env.bridge)
    {transaction : TransactionView} (bytes : transaction.bytes.isSome) (accountAddress : String) :
    Returns (syncTransactionWithProof transaction accountAddress)
      (fun _ env' => Honest env'.rpc ∧ env'.bridge = env.bridge) env := by
  refine Returns.bind_of (getTransactionProof_returns honest ready bytes) ?_
  rintro (_ | proof) env₁ ⟨honest₁, hb⟩ <;> simp [honest₁, hb]

theorem syncNewEvents_returns (accountAddress : String) (events : List EventView)
    (honest : Honest env.rpc) (ready : Ready env.bridge) :
    Returns (syncNewEvents accountAddress events)
      (fun _ env' => Honest env'.rpc ∧ env'.bridge = env.bridge) env := by
  induction events generalizing env with
  | nil => simpa [syncNewEvents]
  | cons event events ih =>
    refine Returns.bind_of (getTransactionByVersion_returns honest _) ?_
    rintro (_ | transaction) env₁ ⟨honest₁, hb₁, bytes⟩
    · exact (ih honest₁ (hb₁ ▸ ready)).mono fun _ _ ⟨h, hb⟩ => ⟨h, hb.trans hb₁⟩
    · refine Returns.bind_of (syncTransactionWithProof_returns honest₁ (hb₁ ▸ ready)
        (bytes _ rfl) accountAddress) ?_
      rintro (_ | ⟨⟩) env₂ ⟨honest₂, hb₂⟩
      · simp [honest₂, hb₂, hb₁]
      · exact (ih honest₂ (hb₂ ▸ hb₁ ▸ ready)).mono fun _ _ ⟨h, hb⟩ => ⟨h, hb.trans (hb₂.trans hb₁)⟩

theorem syncTransactions_returns (accountAddress : String) (transactions : List TransactionView)
    (bytes : ∀ t ∈ transactions, t.bytes.isSome) (honest : Honest env.rpc)
    (ready : Ready env.bridge) :
    Returns (syncTransactions accountAddress transactions)
      (fun _ env' => Honest env'.rpc ∧ env'.bridge = env.bridge) env := by
  induction transactions generalizing env with
  | nil => simpa [syncTransactions]
  | cons transaction transactions ih =>
    rw [List.forall_mem_cons] at bytes
    refine Returns.bind_of
      (syncTransactionWithProof_returns honest ready bytes.1 accountAddress) ?_
    rintro (_ | ⟨⟩) env₁ ⟨honest₁, hb₁⟩
    · simp [honest₁, hb₁]
    · exact (ih bytes.2 honest₁ (hb₁ ▸ ready)).mono fun _ _ ⟨h, hb⟩ => ⟨h, hb.trans hb₁⟩

variable {ratchet : TrustedState → LedgerInfo → EpochChangeProof → Except String TrustedStateChange}

theorem verifyStateProof_returns (sound : RatchetSound ratchet) (honest : Honest env.rpc)
    (trusted : env.bridge.trustedState.isSome) (li : LedgerInfo)
    (epochChangeProof : EpochChangeProof) :
    Returns (verifyStateProof ratchet li epochChangeProof)
      (fun _ env' => Honest env'.rpc ∧ Keeps env.bridge env'.bridge) env := by
  obtain ⟨trusted, hts⟩ := Option.isSome_iff_exists.mp trusted
  simp only [verifyStateProof, returns_bind, returns_get, returns_unwrap, hts, Option.some.injEq,
    exists_eq_left', returns_ite]
  split
  · simpa using ⟨honest, Keeps.refl _⟩
  · rcases h : ratchet trusted li epochChangeProof with e | ⟨newState, eli⟩ | newState | _
    · simpa using ⟨honest, Keeps.refl _⟩
    · obtain ⟨next, hnext⟩ := Option.isSome_iff_exists.mp (sound _ _ _ _ _ h)
      simp only [hnext, returns_bind, returns_expect, Option.some.injEq, exists_eq_left',
        returns_update, returns_pure]
      exact ⟨honest, Keeps.of_fields rfl rfl rfl rfl⟩
    · simp only [returns_bind, returns_update, returns_pure]
      exact ⟨honest, Keeps.of_fields rfl rfl rfl rfl⟩
    · simpa using ⟨honest, Keeps.refl _⟩

theorem initState_returns (sound : RatchetSound ratchet) (honest : Honest env.rpc)
    (withPr : Bool) :
    Returns (initState ratchet withPr)
      (fun r env' => Honest env'.rpc ∧ Keeps env.bridge env'.bridge ∧
        (r = .ok () → Started env'.bridge)) env := by
  simp only [initState, returns_bind, returns_requestRpc]
  refine ⟨fun reply h => ?_, fun _ => by simpa using ⟨honest, Keeps.refl _⟩⟩
  obtain ⟨epochChangeProof, li, hp, htrust⟩ := honest _ _ _ h
  obtain ⟨zero, trusted, hzero, htrusted⟩ := EpochChangeProof.firstTrustable_iff.mp htrust
  simp only [hp, hzero, htrusted, returns_unwrap, Option.some.injEq, exists_eq_left',
    returns_update]
  refine (verifyStateProof_returns sound (by exact honest) (by rfl) li epochChangeProof).mono ?_
  rintro _ env₂ ⟨honest₂, keeps₂⟩
  have started₂ : Started env₂.bridge := keeps₂.1 ⟨rfl, rfl, rfl⟩
  have keeps : Keeps env.bridge env₂.bridge := ⟨fun _ => started₂, keeps₂.2⟩
  cases withPr
  · simp [honest₂, keeps, started₂]
  · simp only [returns_ite, returns_bind, returns_query]
    refine ⟨fun resp _ => ?_, fun _ => by simp [honest₂, keeps]⟩
    rcases resp with (_ | _) | _ <;> simp [honest₂, keeps, started₂]

theorem loopThenRecord_returns {loop : BridgeM (Except Error Unit)}
    {record : DiemBridge → DiemBridge}
    (hloop : Returns loop (fun _ env' => Honest env'.rpc ∧ env'.bridge = env.bridge) env)
    (hrecord : ∀ b, Keeps b (record b)) :
    Returns (loopThenRecord loop record)
      (fun _ env' => Honest env'.rpc ∧ Keeps env.bridge env'.bridge) env := by
  refine Returns.bind_of hloop ?_
  rintro (_ | ⟨⟨⟩⟩) env₁ ⟨honest₁, hb₁⟩
  · simpa [honest₁, hb₁] using Keeps.refl env.bridge
  · simpa [honest₁, hb₁] using hrecord env.bridge

theorem syncAndRecord_returns (sound : RatchetSound ratchet) (honest : Honest env.rpc)
    (ready : Ready env.bridge) (needInit : Bool) {loop : BridgeM (Except Error Unit)}
    {record : DiemBridge → DiemBridge}
    (hloop : ∀ {env : Env}, Honest env.rpc → Ready env.bridge →
      Returns loop (fun _ env' => Honest env'.rpc ∧ env'.bridge = env.bridge) env)
    (hrecord : ∀ b, Keeps b (record b)) :
    Returns (syncAndRecord ratchet needInit loop record)
      (fun _ env' => Honest env'.rpc ∧ Keeps env.bridge env'.bridge) env := by
  simp only [syncAndRecord, returns_bind, returns_ite]
  split
  · refine (initState_returns sound honest false).mono ?_
    rintro (_ | ⟨⟨⟩⟩) env₁ ⟨honest₁, keeps₁, -⟩
    · simpa [honest₁] using keeps₁
    · simp only [returns_bind, returns_pure]
      exact (loopThenRecord_returns (hloop honest₁ (keeps₁.ready ready)) hrecord).mono
        fun _ _ ⟨h, keeps⟩ => ⟨h, keeps₁.trans keeps⟩
  · simpa using loopThenRecord_returns (hloop honest ready) hrecord

theorem syncReceivingTransactions_returns (sound : RatchetSound ratchet) (honest : Honest env.rpc)
    (ready : Ready env.bridge) (receivedEventsKey : String) (sequenceNumber : UInt64)
    (accountAddress : String) (stateInitiated : Bool) :
    Returns (syncReceivingTransactions ratchet receivedEventsKey sequenceNumber accountAddress
        stateInitiated)
      (fun _ env' => Honest env'.rpc ∧ Keeps env.bridge env'.bridge) env := by
  simp only [syncReceivingTransactions, returns_bind, returns_requestRpc]
  refine ⟨fun reply h => ?_, fun _ => by simpa using ⟨honest, Keeps.refl _⟩⟩
  obtain ⟨events, he⟩ := Option.isSome_iff_exists.mp (honest _ _ _ h)
  simp only [he, returns_unwrap, Option.some.injEq, exists_eq_left', returns_get]
  exact syncAndRecord_returns sound (by exact honest) (by exact ready) _ (syncNewEvents_returns _ _)
    (by exact fun _ => Keeps.of_eq rfl rfl rfl rfl)

theorem syncSentTransactions_returns (sound : RatchetSound ratchet) (honest : Honest env.rpc)
    (ready : Ready env.bridge) (accountAddress : String) (stateInitiated : Bool) :
    Returns (syncSentTransactions ratchet accountAddress stateInitiated)
      (fun _ env' => Honest env'.rpc ∧ Keeps env.bridge env'.bridge) env := by
  obtain ⟨account, hacc⟩ := Option.isSome_iff_exists.mp ready.2
  simp only [syncSentTransactions, returns_bind, returns_get, returns_unwrap, hacc,
    Option.some.injEq, exists_eq_left', returns_requestRpc]
  refine ⟨fun reply h => ?_, fun _ => by simpa using ⟨honest, Keeps.refl _⟩⟩
  obtain ⟨transactions, ht, hbytes⟩ := honest _ _ _ h
  simp only [ht, returns_unwrap, Option.some.injEq, exists_eq_left', returns_get]
  exact syncAndRecord_returns sound (by exact honest) (by exact ready) _
    (syncTransactions_returns _ _ fun t ht => hbytes t (List.mem_of_mem_filter ht))
    (by exact fun _ => Keeps.of_eq rfl rfl rfl rfl)

theorem syncAccount_returns (sound : RatchetSound ratchet) (honest : Honest env.rpc)
    (started : Started env.bridge) (accountAddress : String) :
    Returns (syncAccount ratchet accountAddress)
      (fun _ env' => Honest env'.rpc ∧ Started env'.bridge) env := by
  simp only [syncAccount, returns_bind, returns_requestRpc]
  refine ⟨fun reply h => ?_, fun _ => by simpa using ⟨honest, started⟩⟩
  obtain ⟨view?, hv⟩ := Option.isSome_iff_exists.mp (honest _ _ _ h)
  simp only [hv, returns_unwrap, Option.some.injEq, exists_eq_left']
  rcases view? with _ | view
  · simpa using ⟨honest, started⟩
  simp only [returns_bind, returns_update, returns_query]
  refine ⟨fun resp _ => ?_, fun _ => by simpa using ⟨honest, started⟩⟩
  simp only [returns_bind, returns_pure, returns_ite]
  split
  · refine (syncReceivingTransactions_returns sound (by exact honest) (by exact ⟨started, rfl⟩)
      _ _ _ _).mono ?_
    rintro (_ | ⟨⟨⟩⟩) env₃ ⟨honest₃, keeps₃⟩
    · simpa using ⟨honest₃, keeps₃.1 started⟩
    · simp only [returns_bind, returns_pure]
      refine (syncSentTransactions_returns sound honest₃ (keeps₃.ready ⟨started, rfl⟩) _ _).mono ?_
      exact fun _ _ ⟨honest₄, keeps₄⟩ => ⟨honest₄, keeps₄.1 (keeps₃.1 started)⟩
  · refine (syncSentTransactions_returns sound (by exact honest) (by exact ⟨started, rfl⟩)
      _ _).mono ?_
    exact fun _ _ ⟨honest₄, keeps₄⟩ => ⟨honest₄, keeps₄.1 started⟩

theorem syncRounds_returns (sound : RatchetSound ratchet) (n : Nat) (honest : Honest env.rpc)
    (started : Started env.bridge) :
    Returns (syncRounds ratchet n) (fun _ env' => Honest env'.rpc ∧ Started env'.bridge) env := by
  induction n generalizing env with
  | zero => simpa [syncRounds] using ⟨honest, started⟩
  | succ n ih =>
    refine Returns.bind_of (syncAccount_returns sound honest started aliceAddress) ?_
    exact fun _ _ ⟨honest₁, started₁⟩ => ih honest₁ started₁

end Specs

/-! ## The loop returns -/

section Runs

variable {ratchet : TrustedState → LedgerInfo → EpochChangeProof → Except String TrustedStateChange}
  {env env₀ env₁ env' : Env}

/-- A round whose run is known: the later rounds go on from where it ends. -/
theorem syncRounds_run_succ {r : Except Error Unit} {n : Nat}
    (first : (syncAccount ratchet aliceAddress).run env = .ok (r, env₁)) :
    (syncRounds ratchet (n + 1)).run env = (syncRounds ratchet n).run env₁ := by
  simp only [syncRounds, StateT.run_bind, first]
  rfl

/-- A start-up and rounds whose runs are known: the run of `bridge`. -/
theorem bridge_run_of_initState {n : Nat}
    (start : (initState ratchet true).run env = .ok (.ok (), env₀))
    (rounds : (syncRounds ratchet n).run env₀ = .ok ((), env')) :
    (bridge ratchet n).run env = .ok (.ok (), env') := by
  simp only [bridge, StateT.run_bind, start]
  show (do let p ← (syncRounds ratchet n).run env₀; pure (Except.ok (), p.2)) = _
  rw [rounds]
  rfl

end Runs

/-- `verify_and_ratchet` on a state proof with nothing new. -/
def noChange : TrustedState → LedgerInfo → EpochChangeProof → Except String TrustedStateChange :=
  fun _ _ _ => .ok .noChange

/-- A node and a pRuntime that fail every call. -/
def offline : Env :=
  ⟨DiemBridge.new, fun _ _ => none, fun _ _ => none, [], []⟩

/-- **The bridge does not panic**: over a node whose answers fit their requests and a sound
`verify_and_ratchet`, start-up and `n` rounds of the loop return, for every `n`, whatever
pRuntime answers and whichever calls fail. -/
theorem bridge_returns {ratchet : TrustedState → LedgerInfo → EpochChangeProof →
      Except String TrustedStateChange}
    (sound : RatchetSound ratchet) (env : Env) (honest : Honest env.rpc) (n : Nat) :
    ∃ r env', (bridge ratchet n).run env = .ok (r, env') := by
  suffices h : Returns (bridge ratchet n) (fun _ _ => True) env from
    let ⟨r, env', hrun, _⟩ := h
    ⟨r, env', hrun⟩
  refine Returns.bind_of (initState_returns sound honest true) ?_
  rintro (_ | ⟨⟨⟩⟩) env₁ ⟨honest₁, -, started₁⟩
  · simp
  · simp only [returns_bind, returns_pure]
    exact (syncRounds_returns sound n honest₁ (started₁ rfl)).mono fun _ _ _ => trivial

/-- The ledger info that closes the genesis epoch: version `0`, and the validators of
epoch `1`. -/
def genesisLedger : LedgerInfo :=
  ⟨0, some ⟨1⟩⟩

/-- Alice's account on the node: one payment received, nothing sent. -/
def steadyView : AccountView :=
  ⟨none, 1, "sent", "received", [⟨100, "XUS"⟩]⟩

/-- The latest ledger info of the node, at version `5`, inside epoch `1`. -/
def steadyLedger : LedgerInfo :=
  ⟨5, none⟩

/-- The payment to Alice's account. -/
def steadyPayment : TransactionView :=
  ⟨5, .userTransaction, "h5", some [5]⟩

/-- A node whose answers do not depend on the requests before them: Alice's account, the
genesis epoch change with the latest ledger info, and the payment with its proof. -/
def steadyNode (_ : List RpcRequest) : RpcRequest → Option RpcReply
  | .getStateProof _ => some (.stateProof ⟨[genesisLedger]⟩ steadyLedger)
  | .getAccount _ => some (.account (some steadyView))
  | .getEvents .. => some (.events [⟨5⟩])
  | .getAccountTransactions .. => some (.transactions [])
  | .getAccountStateWithProof .. => some (.accountStateWithProof ⟨"h5", some [1]⟩)
  | .getTransactions .. => some (.transactions [steadyPayment])

theorem steadyNode_honest : Honest steadyNode := by
  intro _ request reply h
  cases request <;> cases h
  case getStateProof => exact ⟨_, _, rfl, rfl⟩
  case getAccountStateWithProof => exact ⟨_, rfl, rfl⟩
  case getAccountTransactions | getTransactions => exact ⟨_, rfl, by decide⟩
  all_goals rfl

/-- pRuntime accepting every query, and trusting every state it is given. -/
def acceptAll (_ : List (QueryReqData × Bool)) : QueryReqData → Option QueryRespData
  | .setTrustedState _ => some (.setTrustedState true)
  | _ => some .other

/-- Nothing known yet, before `steadyNode` and `acceptAll`. -/
def steadyStart : Env :=
  ⟨DiemBridge.new, steadyNode, acceptAll, [], []⟩

/-- Where start-up from `steadyStart` ends: the genesis trust loaded, and accepted. -/
def steadyStarted : Env :=
  { steadyStart with
    bridge := { DiemBridge.new with
      epochChangeProof := some ⟨[genesisLedger]⟩, trustedState := some ⟨0, ⟨1⟩⟩,
      latestEpochChangeLi := some genesisLedger, latestLi := some steadyLedger }
    asked := [.getStateProof 0]
    sent := [(.setTrustedState genesisLedger, true)] }

theorem initState_steadyStart :
    (initState noChange true).run steadyStart = .ok (.ok (), steadyStarted) :=
  rfl

theorem bridge_returns_steadyNode :
    RatchetSound noChange ∧ Honest steadyStart.rpc ∧
      ∃ r env', (bridge noChange 3).run steadyStart = .ok (r, env') :=
  have sound : RatchetSound noChange := fun _ _ _ _ _ h => nomatch h
  ⟨sound, steadyNode_honest, bridge_returns sound steadyStart steadyNode_honest 3⟩

end Bridge

end Plibra
