import Plibra.Bridge.Sync

/-!
# Plibra.Bridge.Reinit — a round keeps no trust from the rounds before it

The bridge's trust is what `init_state` writes: `epoch_change_proof`, `trusted_state`,
`latest_epoch_change_li` and `latest_li`.  As `sync_account` passes `state_initiated = false`, a
round reads it only after `init_state` has overwritten it with the node's state proof from
version `0`.  `TrustBlind m`: from two worlds that differ at most in the trust (`Env.untrusted`),
`m` panics alike, or returns the same value in worlds that again differ at most in the trust.
There is one rule per primitive, and after a write of the whole trust the two worlds are equal
(`trustBlind_update_bind`).
-/

namespace Plibra

namespace Bridge

/-- The bridge with its trust cleared: the four fields `init_state` writes. -/
def DiemBridge.untrusted (b : DiemBridge) : DiemBridge :=
  { b with
    epochChangeProof := none
    trustedState := none
    latestEpochChangeLi := none
    latestLi := none }

/-- The world with the bridge's trust cleared. -/
def Env.untrusted (env : Env) : Env :=
  { env with bridge := env.bridge.untrusted }

/-- What a run leaves, with the bridge's trust cleared. -/
def forgetTrust {α : Type} (p : α × Env) : α × Env :=
  (p.1, p.2.untrusted)

/-- `m` never lets the bridge's trust matter: from two worlds that differ at most in it, `m`
panics with the same message, or returns the same value in worlds that differ at most in it. -/
def TrustBlind {α : Type} (m : BridgeM α) : Prop :=
  ∀ env₁ env₂ : Env, env₁.untrusted = env₂.untrusted →
    forgetTrust <$> m.run env₁ = forgetTrust <$> m.run env₂

/-! ## The rules -/

section Rules

variable {α β : Type}

/-- It is enough to compare a run with the run from the same world with its trust cleared. -/
theorem TrustBlind.of_untrusted {m : BridgeM α}
    (h : ∀ env, forgetTrust <$> m.run env = forgetTrust <$> m.run env.untrusted) :
    TrustBlind m :=
  fun env₁ env₂ heq => by rw [h env₁, h env₂, heq]

theorem trustBlind_pure (a : α) : TrustBlind (pure a : BridgeM α) := fun _ _ h => by
  show Except.ok _ = Except.ok _
  simp only [forgetTrust, h]

theorem TrustBlind.bind {m : BridgeM β} {k : β → BridgeM α} (hm : TrustBlind m)
    (hk : ∀ b, TrustBlind (k b)) : TrustBlind (m >>= k) := by
  intro env₁ env₂ h
  have hrun := hm env₁ env₂ h
  simp only [StateT.run_bind]
  rcases h₁ : m.run env₁ with s₁ | ⟨b₁, e₁⟩ <;> rcases h₂ : m.run env₂ with s₂ | ⟨b₂, e₂⟩ <;>
    simp only [h₁, h₂, Functor.map, Except.map, forgetTrust, Except.error.injEq, Except.ok.injEq,
      Prod.mk.injEq, reduceCtorEq] at hrun ⊢
  · subst hrun; rfl
  · exact hrun.1 ▸ hk b₁ e₁ e₂ hrun.2

theorem trustBlind_requestRpc (request : RpcRequest) : TrustBlind (requestRpc request) :=
  .of_untrusted fun env => by
    show forgetTrust <$> requestRpc request env = forgetTrust <$> requestRpc request env.untrusted
    simp only [requestRpc, Env.untrusted]
    cases env.rpc env.asked request <;> rfl

theorem trustBlind_query (req : QueryReqData) : TrustBlind (query req) :=
  .of_untrusted fun env => by
    show forgetTrust <$> query req env = forgetTrust <$> query req env.untrusted
    simp only [query, Env.untrusted]
    cases env.pruntime env.sent req <;> rfl

theorem trustBlind_expect_bind (msg : String) (o : Option β) {k : β → BridgeM α}
    (hk : ∀ b, TrustBlind (k b)) : TrustBlind (expect msg o >>= k) := by
  cases o with
  | none => exact fun _ _ _ => rfl
  | some b => simpa only [expect, pure_bind] using hk b

theorem update_run (f : DiemBridge → DiemBridge) (env : Env) :
    (update f).run env = .ok ((), { env with bridge := f env.bridge }) :=
  rfl

/-- A write that keeps the trust apart from the rest. -/
theorem trustBlind_update {f : DiemBridge → DiemBridge}
    (hf : ∀ b, (f b).untrusted = (f b.untrusted).untrusted) : TrustBlind (update f) :=
  .of_untrusted fun env => by
    simp only [update_run, Functor.map, Except.map, forgetTrust, Env.untrusted]
    rw [hf]

/-- A write of the whole trust, from what the rest holds: the two worlds are then equal, so what
comes next need not be blind. -/
theorem trustBlind_update_bind {f : DiemBridge → DiemBridge} (hf : ∀ b, f b = f b.untrusted)
    (k : Unit → BridgeM α) : TrustBlind (update f >>= k) := by
  intro env₁ env₂ h
  show forgetTrust <$> (k ()).run { env₁ with bridge := f env₁.bridge } =
    forgetTrust <$> (k ()).run { env₂ with bridge := f env₂.bridge }
  rw [hf env₁.bridge, hf env₂.bridge]
  show forgetTrust <$> (k ()).run { env₁.untrusted with bridge := f env₁.untrusted.bridge } =
    forgetTrust <$> (k ()).run { env₂.untrusted with bridge := f env₂.untrusted.bridge }
  rw [h]

/-- A read of the world that looks only at what the trust leaves out. -/
theorem trustBlind_get_bind {k : Env → BridgeM α} (hk : ∀ env, TrustBlind (k env))
    (hread : ∀ env, k env = k env.untrusted) : TrustBlind (get >>= k) := by
  intro env₁ env₂ h
  show forgetTrust <$> (k env₁).run env₁ = forgetTrust <$> (k env₂).run env₂
  rw [hread env₁, hread env₂, h]
  exact hk _ _ _ h

/-- `newEvents.length > 0 && !state_initiated` with `state_initiated = false` is `false` only
when there is nothing new. -/
theorem eq_nil_of_needInit {γ : Type} {l : List γ} (h : (decide (l.length > 0) && !false) = false) :
    l = [] :=
  List.eq_nil_of_length_eq_zero (by simpa using h)

end Rules

/-! ## One spec per function -/

section Specs

variable {α : Type}
  {ratchet : TrustedState → LedgerInfo → EpochChangeProof → Except String TrustedStateChange}

/-- `init_state` writes the whole trust before it reads any: whatever follows it is blind, as long
as what follows a failure is. -/
theorem initState_bind_trustBlind (withPr : Bool) {k : Except Error Unit → BridgeM α}
    (hk : ∀ e, TrustBlind (k (.error e))) : TrustBlind (initState ratchet withPr >>= k) := by
  simp only [initState, bind_assoc]
  refine (trustBlind_requestRpc _).bind ?_
  rintro (_ | resp)
  · exact hk _
  · dsimp only
    simp only [bind_assoc]
    refine trustBlind_expect_bind _ _ fun _ => trustBlind_expect_bind _ _ fun _ =>
      trustBlind_expect_bind _ _ fun _ => ?_
    refine trustBlind_update_bind (fun _ => ?_) _
    rfl

theorem loopThenRecord_trustBlind {loop : BridgeM (Except Error Unit)}
    {record : DiemBridge → DiemBridge} (hloop : TrustBlind loop)
    (hrecord : ∀ b, (record b).untrusted = (record b.untrusted).untrusted) :
    TrustBlind (loopThenRecord loop record) := by
  refine hloop.bind ?_
  rintro (_ | ⟨⟨⟩⟩)
  · exact trustBlind_pure _
  · exact (trustBlind_update hrecord).bind fun _ => trustBlind_pure _

/-- The loop runs either after `init_state`, or with nothing to do. -/
theorem syncAndRecord_trustBlind {needInit : Bool} {loop : BridgeM (Except Error Unit)}
    {record : DiemBridge → DiemBridge} (hloop : needInit = false → TrustBlind loop)
    (hrecord : ∀ b, (record b).untrusted = (record b.untrusted).untrusted) :
    TrustBlind (syncAndRecord ratchet needInit loop record) := by
  cases needInit with
  | true => exact initState_bind_trustBlind false fun _ => trustBlind_pure _
  | false => exact loopThenRecord_trustBlind (hloop rfl) hrecord

theorem syncReceivingTransactions_trustBlind (receivedEventsKey : String) (sequenceNumber : UInt64)
    (accountAddress : String) :
    TrustBlind (syncReceivingTransactions ratchet receivedEventsKey sequenceNumber accountAddress
      false) := by
  refine (trustBlind_requestRpc _).bind ?_
  rintro (_ | resp)
  · exact trustBlind_pure _
  refine trustBlind_expect_bind _ _ fun _ => trustBlind_get_bind (fun _ => ?_) fun _ => rfl
  refine syncAndRecord_trustBlind (fun h => ?_) fun _ => rfl
  rw [eq_nil_of_needInit h]
  exact trustBlind_pure _

theorem syncSentTransactions_trustBlind (accountAddress : String) :
    TrustBlind (syncSentTransactions ratchet accountAddress false) := by
  refine trustBlind_get_bind (fun _ => ?_) fun _ => rfl
  refine trustBlind_expect_bind _ _ fun _ => (trustBlind_requestRpc _).bind ?_
  rintro (_ | resp)
  · exact trustBlind_pure _
  refine trustBlind_expect_bind _ _ fun _ => trustBlind_get_bind (fun _ => ?_) fun _ => rfl
  refine syncAndRecord_trustBlind (fun h => ?_) fun _ => rfl
  rw [eq_nil_of_needInit h]
  exact trustBlind_pure _

theorem syncAccount_trustBlind (accountAddress : String) :
    TrustBlind (syncAccount ratchet accountAddress) := by
  refine (trustBlind_requestRpc _).bind ?_
  rintro (_ | resp)
  · exact trustBlind_pure _
  refine trustBlind_expect_bind _ _ ?_
  rintro (_ | view)
  · exact trustBlind_pure _
  refine TrustBlind.bind (trustBlind_update fun _ => rfl) fun _ => (trustBlind_query _).bind ?_
  rintro (_ | _)
  · exact trustBlind_pure _
  simp only [pure_bind]
  split
  · refine (syncReceivingTransactions_trustBlind _ _ _).bind ?_
    rintro (_ | ⟨⟨⟩⟩)
    · exact trustBlind_pure _
    · exact syncSentTransactions_trustBlind _
  · exact syncSentTransactions_trustBlind _

/-- **The rounds keep no trust.**  For any node, pRuntime and `verify_and_ratchet`, and any number
of rounds of the bridge loop: from two worlds that differ at most in the bridge's trust, the
rounds panic alike, or make the same requests, send the same queries with the same outcomes and
record the same account and listings, and end differing at most in the trust. -/
theorem syncRounds_trustBlind (n : Nat) : TrustBlind (syncRounds ratchet n) := by
  induction n with
  | zero => exact trustBlind_pure _
  | succ n ih => exact (syncAccount_trustBlind _).bind fun _ => ih

end Specs

end Bridge

end Plibra
