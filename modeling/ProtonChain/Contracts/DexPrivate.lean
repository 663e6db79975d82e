import ProtonChain.Contracts.DexReserves

/-! Private swaps of the exchange as a contract of the chain itself.

The host checks the proofs and moves the hidden amounts; the books stay as they are.
-/

set_option autoImplicit false

namespace ProtonChain.Contracts

open Checked

/-- The host functions that private swaps call besides; a transfer that panics is `none`. -/
structure PrivateDexHost (World : Type) extends Host World where
  verifySwapProof : World → Bytes → Address × Address → Hash → Bytes → Bool
  verifyBalanceProof : World → Bytes → Address → Bytes → Bool
  privateTransfer : World → Address → Address → Address → Bytes → Option World

inductive PrivateDexPanic where
  | dex (panic : DexPanic)
  | privateTransfer
  deriving DecidableEq, Repr

namespace ProtonDEX

section Calls
variable {World : Type} (host : PrivateDexHost World) (caller : Address) (state : State World)

def privateSwap (tokenIn tokenOut : Address) (proof : Bytes) (nullifier : Hash)
    (encryptedAmountIn encryptedAmountOut : Bytes) (_minAmountOutCommitment : Hash)
    (zkBalanceProof : Bytes) : Outcome PrivateDexPanic (State World) := do
  let pairKey := sortPair tokenIn tokenOut
  let _pair ← lift .dex (unwrap (state.dex.pairs.lookup pairKey))
  ensure (host.verifySwapProof state.world proof pairKey nullifier encryptedAmountIn)
    (.reason "Invalid swap proof")
  ensure (host.verifyBalanceProof state.world zkBalanceProof caller encryptedAmountIn)
    (.reason "Insufficient balance")
  let world ← demand (.raised .privateTransfer)
    (host.privateTransfer state.world tokenIn caller host.selfAddress encryptedAmountIn)
  let world ← demand (.raised .privateTransfer)
    (host.privateTransfer world tokenOut host.selfAddress caller encryptedAmountOut)
  return { state with world := world }

end Calls

/-! ## Runs -/

inductive PrivateInput (World : Type) where
  | dex (input : Input World)
  | privateSwap (caller tokenIn tokenOut : Address) (proof : Bytes) (nullifier : Hash)
    (encryptedAmountIn encryptedAmountOut : Bytes) (minAmountOutCommitment : Hash)
    (zkBalanceProof : Bytes)

section Runs
variable {World : Type} (host : PrivateDexHost World)

def performPrivate (state : State World) :
    PrivateInput World → Outcome PrivateDexPanic (State World)
  | .dex input => lift .dex (perform host.toHost state input)
  | .privateSwap caller tokenIn tokenOut proof nullifier encryptedAmountIn encryptedAmountOut
      minAmountOutCommitment zkBalanceProof =>
    privateSwap host caller state tokenIn tokenOut proof nullifier encryptedAmountIn
      encryptedAmountOut minAmountOutCommitment zkBalanceProof

def privateStep : State World → PrivateInput World →
    Except (Fault PrivateDexPanic) Unit × State World :=
  Transactions.step (performPrivate host)

def AcceptsSwap (nullifier : Hash) (state : State World) (input : PrivateInput World) : Prop :=
  Transactions.Succeeds (performPrivate host) state input ∧
    ∃ caller tokenIn tokenOut proof encryptedAmountIn encryptedAmountOut minAmountOutCommitment
      zkBalanceProof, input = .privateSwap caller tokenIn tokenOut proof nullifier
        encryptedAmountIn encryptedAmountOut minAmountOutCommitment zkBalanceProof

/-- What a private swap is checked for, and the world that its two transfers leave. -/
structure Swaps (caller : Address) (state : State World) (tokenIn tokenOut : Address)
    (proof : Bytes) (nullifier : Hash) (encryptedAmountIn encryptedAmountOut zkBalanceProof : Bytes)
    (world : World) : Prop where
  found : sortPair tokenIn tokenOut ∈ state.dex.pairs
  swap : host.verifySwapProof state.world proof (sortPair tokenIn tokenOut) nullifier
    encryptedAmountIn = true
  balance : host.verifyBalanceProof state.world zkBalanceProof caller encryptedAmountIn = true
  moved : ∃ between,
    host.privateTransfer state.world tokenIn caller host.selfAddress encryptedAmountIn =
      some between ∧
    host.privateTransfer between tokenOut host.selfAddress caller encryptedAmountOut = some world

def PassesSwap (nullifier : Hash) (state : State World) (input : PrivateInput World) : Prop :=
  ∃ caller tokenIn tokenOut proof encryptedAmountIn encryptedAmountOut minAmountOutCommitment
    zkBalanceProof world, input = .privateSwap caller tokenIn tokenOut proof nullifier
        encryptedAmountIn encryptedAmountOut minAmountOutCommitment zkBalanceProof ∧
      Swaps host caller state tokenIn tokenOut proof nullifier encryptedAmountIn
        encryptedAmountOut zkBalanceProof world

variable {host} {state next : State World} {nullifier : Hash} {input : PrivateInput World}

theorem privateSwap_eq_ok {caller tokenIn tokenOut : Address}
    {proof encryptedAmountIn encryptedAmountOut zkBalanceProof : Bytes}
    (minAmountOutCommitment : Hash) :
    privateSwap host caller state tokenIn tokenOut proof nullifier encryptedAmountIn
        encryptedAmountOut minAmountOutCommitment zkBalanceProof = .ok next ↔
      ∃ world, Swaps host caller state tokenIn tokenOut proof nullifier encryptedAmountIn
        encryptedAmountOut zkBalanceProof world ∧ next = { state with world := world } := by
  simp only [privateSwap, bind_eq_ok, lift_eq_ok, unwrap_eq_ok, ensure_eq_ok, demand_eq_ok,
    pure_eq_ok]
  constructor
  · rintro ⟨pair, found, -, swap, -, balance, between, paid, world, received, rfl⟩
    exact ⟨world, ⟨Finmap.mem_of_lookup_eq_some found, swap, balance, between, paid, received⟩,
      rfl⟩
  · rintro ⟨world, ⟨found, swap, balance, between, paid, received⟩, rfl⟩
    obtain ⟨pair, found⟩ := Finmap.mem_iff.mp found
    exact ⟨pair, found, (), swap, (), balance, between, paid, world, received, rfl⟩

theorem acceptsSwap_iff : AcceptsSwap host nullifier state input ↔
    PassesSwap host nullifier state input := by
  constructor
  · rintro ⟨⟨next, performed⟩, caller, tokenIn, tokenOut, proof, amountIn, amountOut, minimum,
      balanceProof, rfl⟩
    obtain ⟨world, swaps, -⟩ := (privateSwap_eq_ok minimum).mp performed
    exact ⟨caller, tokenIn, tokenOut, proof, amountIn, amountOut, minimum, balanceProof, world, rfl,
      swaps⟩
  · rintro ⟨caller, tokenIn, tokenOut, proof, amountIn, amountOut, minimum, balanceProof, world,
      rfl, swaps⟩
    exact ⟨⟨_, (privateSwap_eq_ok minimum).mpr ⟨world, swaps, rfl⟩⟩, caller, tokenIn, tokenOut,
      proof, amountIn, amountOut, minimum, balanceProof, rfl⟩

/-- An accepted swap leaves the contract as it was, so it is accepted again where the host
answers as before. -/
theorem AcceptsSwap.again (accepts : AcceptsSwap host nullifier state input) :
    AcceptsSwap host nullifier { (privateStep host state input).2 with world := state.world }
      input := by
  have before := accepts
  obtain ⟨⟨next, performed⟩, caller, tokenIn, tokenOut, proof, amountIn, amountOut, minimum,
    balanceProof, rfl⟩ := accepts
  obtain ⟨world, -, rfl⟩ := (privateSwap_eq_ok minimum).mp performed
  rw [privateStep, Transactions.step_of_ok performed]
  exact before

end Runs

end ProtonDEX

end ProtonChain.Contracts
