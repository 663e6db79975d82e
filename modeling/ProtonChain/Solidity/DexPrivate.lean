import ProtonChain.Solidity.Dex

/-! Private swaps of the exchange contract.

A swap with hidden amounts is checked by the verifier and announced; no book is written. The
verifier is set when the contract is deployed and stays the same.
-/

set_option autoImplicit false

namespace ProtonChain.Solidity

open Checked

structure PrivateDexEnv (World : Type) extends Env World where
  zkVerifier : Address
  verifySwap : World → Address → Hash → Hash → Hash → Hash → Bytes → Option Bytes

inductive PrivateDexError where
  | dex (error : DexError)
  | invalidZKProof
  deriving DecidableEq, Repr

namespace ProtonDEX

section Calls
variable {World : Type} (env : PrivateDexEnv World) (state : State World)

def verifySwapProof (pairHash nullifier encryptedAmountIn encryptedAmountOut : Hash)
    (proof : Bytes) : Outcome PrivateDexError Bool :=
  staticAnswer (env.verifySwap state.world env.zkVerifier pairHash nullifier encryptedAmountIn
    encryptedAmountOut proof)

def privateSwap (tokenIn tokenOut : Address)
    (nullifier encryptedAmountIn encryptedAmountOut _minAmountOutCommitment : Hash)
    (zkProof : Bytes) : Outcome PrivateDexError (State World) := do
  let (token0, token1) ← lift .dex (sortTokens tokenIn tokenOut)
  let hash := pairHash env.toEnv token0 token1
  ensure ((state.dex.pair hash).tokenA ≠ Address.zero) (.raised (.dex .pairNotFound))
  let valid ← verifySwapProof env state hash nullifier encryptedAmountIn encryptedAmountOut zkProof
  ensure valid (.raised .invalidZKProof)
  return state

end Calls

/-! ## Runs -/

inductive PrivateInput (World : Type) where
  | dex (input : Input World)
  | privateSwap (caller tokenIn tokenOut : Address)
    (nullifier encryptedAmountIn encryptedAmountOut minAmountOutCommitment : Hash)
    (zkProof : Bytes)

section Runs
variable {World : Type} (env : PrivateDexEnv World)

def performPrivate (state : State World) :
    PrivateInput World → Outcome PrivateDexError (State World)
  | .dex input => lift .dex (perform env.toEnv state input)
  | .privateSwap _ tokenIn tokenOut nullifier encryptedAmountIn encryptedAmountOut
      minAmountOutCommitment zkProof =>
    privateSwap env state tokenIn tokenOut nullifier encryptedAmountIn encryptedAmountOut
      minAmountOutCommitment zkProof

def privateStep : State World → PrivateInput World →
    Except (Fault PrivateDexError) Unit × State World :=
  Transactions.step (performPrivate env)

def AcceptsSwap (nullifier : Hash) (state : State World) (input : PrivateInput World) : Prop :=
  Transactions.Succeeds (performPrivate env) state input ∧
    ∃ caller tokenIn tokenOut encryptedAmountIn encryptedAmountOut minAmountOutCommitment zkProof,
      input = .privateSwap caller tokenIn tokenOut nullifier encryptedAmountIn encryptedAmountOut
        minAmountOutCommitment zkProof

def Swappable (state : State World) (tokenIn tokenOut : Address)
    (nullifier encryptedAmountIn encryptedAmountOut : Hash) (zkProof : Bytes) : Prop :=
  ∃ sorted, sortTokens tokenIn tokenOut = .ok sorted ∧
    (state.dex.pair (pairHash env.toEnv sorted.1 sorted.2)).tokenA ≠ Address.zero ∧
    verifySwapProof env state (pairHash env.toEnv sorted.1 sorted.2) nullifier encryptedAmountIn
      encryptedAmountOut zkProof = .ok true

def PassesSwap (nullifier : Hash) (state : State World) (input : PrivateInput World) : Prop :=
  ∃ caller tokenIn tokenOut encryptedAmountIn encryptedAmountOut minAmountOutCommitment zkProof,
    input = .privateSwap caller tokenIn tokenOut nullifier encryptedAmountIn encryptedAmountOut
        minAmountOutCommitment zkProof ∧
      Swappable env state tokenIn tokenOut nullifier encryptedAmountIn encryptedAmountOut zkProof

variable {env} {state next : State World} {nullifier : Hash} {input : PrivateInput World}

theorem privateSwap_eq_ok {tokenIn tokenOut : Address}
    {encryptedAmountIn encryptedAmountOut : Hash} (minAmountOutCommitment : Hash)
    {zkProof : Bytes} :
    privateSwap env state tokenIn tokenOut nullifier encryptedAmountIn encryptedAmountOut
        minAmountOutCommitment zkProof = .ok next ↔
      Swappable env state tokenIn tokenOut nullifier encryptedAmountIn encryptedAmountOut
        zkProof ∧ next = state := by
  simp only [privateSwap, bind_eq_ok, lift_eq_ok, ensure_eq_ok, pure_eq_ok]
  constructor
  · rintro ⟨sorted, sorts, -, found, valid, verified, -, accepted, rfl⟩
    rw [accepted] at verified
    exact ⟨⟨sorted, sorts, found, verified⟩, rfl⟩
  · rintro ⟨⟨sorted, sorts, found, verified⟩, rfl⟩
    exact ⟨sorted, sorts, (), found, true, verified, (), rfl, rfl⟩

theorem acceptsSwap_iff : AcceptsSwap env nullifier state input ↔
    PassesSwap env nullifier state input := by
  constructor
  · rintro ⟨⟨next, performed⟩, caller, tokenIn, tokenOut, amountIn, amountOut, minimum, proof, rfl⟩
    exact ⟨caller, tokenIn, tokenOut, amountIn, amountOut, minimum, proof, rfl,
      ((privateSwap_eq_ok minimum).mp performed).1⟩
  · rintro ⟨caller, tokenIn, tokenOut, amountIn, amountOut, minimum, proof, rfl, passes⟩
    exact ⟨⟨state, (privateSwap_eq_ok minimum).mpr ⟨passes, rfl⟩⟩, caller, tokenIn, tokenOut,
      amountIn, amountOut, minimum, proof, rfl⟩

theorem AcceptsSwap.again (accepts : AcceptsSwap env nullifier state input) :
    AcceptsSwap env nullifier (privateStep env state input).2 input := by
  obtain ⟨⟨next, performed⟩, caller, tokenIn, tokenOut, amountIn, amountOut, minimum, proof, rfl⟩ :=
    accepts
  obtain ⟨passes, rfl⟩ := (privateSwap_eq_ok minimum).mp performed
  rw [privateStep, Transactions.step_of_ok performed]
  exact ⟨⟨_, performed⟩, caller, tokenIn, tokenOut, amountIn, amountOut, minimum, proof, rfl⟩

end Runs

end ProtonDEX

end ProtonChain.Solidity
