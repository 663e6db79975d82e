import ProtonChain.Solidity.DeploymentVerifier
import ProtonChain.Solidity.ZKCompletion

/-! What a deployment reads of a proof.

The check of a proof is a placeholder that looks at the public inputs alone. So a run of the
deployment depends on a proof that is handed to the verifier only through the one test of its
length, whichever contract it is given to. The proof of an encrypted order is not handed to the
verifier but kept with the order.
-/

set_option autoImplicit false

namespace ProtonChain.Solidity

open Checked ProtonZKVerifier

/-- A proof of zeros in place of one that is long enough, and no bytes in place of another. -/
def ProtonZKVerifier.blank (proof : Bytes) : Bytes :=
  if 256 ≤ proof.length then List.replicate 256 0 else []

theorem ProtonZKVerifier.verify_blank (verifier : ProtonZKVerifier) (publicInputs : List U256)
    (proof : Bytes) :
    verify verifyProof verifier publicInputs (blank proof) =
      verify verifyProof verifier publicInputs proof := by
  by_cases long : 256 ≤ proof.length
  · obtain ⟨decoded, decodes⟩ := decodeProof_succeeds long
    obtain ⟨zeros, decodesZeros⟩ :=
      @decodeProof_succeeds (List.replicate 256 0) List.length_replicate.ge
    rw [blank, if_pos long, verify, verify, decodes, decodesZeros]
    rfl
  · have short : decodeProof proof = .error (.reason "Invalid proof length") := by
      rw [decodeProof, ensure, if_neg long]
      rfl
    rw [blank, if_neg long, verify, verify, short]
    rfl

theorem DeploymentEnv.answer_blank {World : Type} (env : DeploymentEnv World)
    (verifier : ProtonZKVerifier) (world : World) (statement : Statement) (proof : Bytes) :
    env.answer verifier world env.zkVerifier statement (blank proof) =
      env.answer verifier world env.zkVerifier statement proof := by
  rw [answer, answer, if_pos rfl, if_pos rfl, Statement.call_eq, Statement.call_eq, verify_blank]

/-! ## Calls with a blank proof -/

def ProtonPrivateToken.Call.blank : Call → Call
  | .privateTransfer nullifier commitment root encryptedAmount proof =>
    .privateTransfer nullifier commitment root encryptedAmount (ProtonZKVerifier.blank proof)
  | .batchPrivateTransfer nullifiers commitments root encryptedAmounts proof =>
    .batchPrivateTransfer nullifiers commitments root encryptedAmounts
      (ProtonZKVerifier.blank proof)
  | call => call

def ProtonStaking.Call.blank : Call → Call
  | .privateStake address encryptedAmount commitment nullifier zkProof =>
    .privateStake address encryptedAmount commitment nullifier (ProtonZKVerifier.blank zkProof)
  | call => call

def ProtonPrivateNFT.Call.blank : Call → Call
  | .privateMint stealthOwner encryptedMetadata metadataHash zkProof =>
    .privateMint stealthOwner encryptedMetadata metadataHash (ProtonZKVerifier.blank zkProof)
  | .privateTransfer tokenId newStealthOwner nullifier zkProof =>
    .privateTransfer tokenId newStealthOwner nullifier (ProtonZKVerifier.blank zkProof)
  | .revealMetadata tokenId viewKey zkProof =>
    .revealMetadata tokenId viewKey (ProtonZKVerifier.blank zkProof)
  | call => call

def ProtonBridge.Call.blank : Call → Call
  | .initiatePrivateTransfer targetChain stealthReceiver asset encryptedAmount amountCommitment
      nullifier zkProof =>
    .initiatePrivateTransfer targetChain stealthReceiver asset encryptedAmount amountCommitment
      nullifier (ProtonZKVerifier.blank zkProof)
  | .signTransfer transferId signature merkleProof =>
    .signTransfer transferId signature (ProtonZKVerifier.blank merkleProof)
  | .updateMerkleRoot chainId newRoot zkProof =>
    .updateMerkleRoot chainId newRoot (ProtonZKVerifier.blank zkProof)
  | call => call

namespace Deployment

variable {World : Type}

/-- Calls of the order book stay as they are. -/
def Input.blank : Input World → Input World
  | .token caller call => .token caller call.blank
  | .privateSwap caller tokenIn tokenOut nullifier encryptedAmountIn encryptedAmountOut
      minAmountOutCommitment zkProof =>
    .privateSwap caller tokenIn tokenOut nullifier encryptedAmountIn encryptedAmountOut
      minAmountOutCommitment (ProtonZKVerifier.blank zkProof)
  | .staking caller now call => .staking caller now call.blank
  | .nft caller timestamp call => .nft caller timestamp call.blank
  | .bridge caller block call => .bridge caller block call.blank
  | input => input

section Blank
variable {env : DeploymentEnv World} {state : Deployment World}

theorem keepsVerifier_blank {input : Input World} :
    KeepsVerifier env input.blank ↔ KeepsVerifier env input := by
  cases input with
  | token caller call => cases call <;> exact Iff.rfl
  | staking caller now call => cases call <;> exact Iff.rfl
  | nft caller timestamp call => cases call <;> exact Iff.rfl
  | bridge caller block call => cases call <;> exact Iff.rfl
  | _ => exact Iff.rfl

theorem callToken_blank (trusts : Trusts env state) (caller : Address)
    (call : ProtonPrivateToken.Call) :
    callToken env state caller call.blank = callToken env state caller call := by
  cases call with
  | privateTransfer nullifier commitment root encryptedAmount proof =>
    simp only [callToken, ProtonPrivateToken.Call.blank, ProtonPrivateToken.perform,
      ProtonPrivateToken.privateTransfer, ProtonPrivateToken.verifyProof, DeploymentEnv.tokenEnv,
      trusts.token, DeploymentEnv.answer_blank]
  | batchPrivateTransfer nullifiers commitments root encryptedAmounts proof =>
    simp only [callToken, ProtonPrivateToken.Call.blank, ProtonPrivateToken.perform,
      ProtonPrivateToken.batchPrivateTransfer, ProtonPrivateToken.verifyBatchProof,
      DeploymentEnv.tokenEnv, trusts.token, DeploymentEnv.answer_blank]
  | _ => rfl

theorem callStaking_blank (trusts : Trusts env state) (caller : Address) (now : U64)
    (call : ProtonStaking.Call) :
    callStaking env state caller now call.blank = callStaking env state caller now call := by
  cases call with
  | privateStake address encryptedAmount commitment nullifier zkProof =>
    simp only [callStaking, ProtonStaking.Call.blank, ProtonStaking.perform,
      ProtonStaking.privateStake, ProtonStaking.verifyStakeProof, DeploymentEnv.stakingEnv,
      trusts.staking, DeploymentEnv.answer_blank]
  | _ => rfl

theorem callNft_blank (trusts : Trusts env state) (caller : Address) (timestamp : U256)
    (call : ProtonPrivateNFT.Call) :
    callNft env state caller timestamp call.blank = callNft env state caller timestamp call := by
  cases call with
  | privateMint stealthOwner encryptedMetadata metadataHash zkProof =>
    simp only [callNft, ProtonPrivateNFT.Call.blank, ProtonPrivateNFT.perform,
      ProtonPrivateNFT.privateMint, ProtonPrivateNFT.verifyMetadataProof, DeploymentEnv.nftEnv,
      trusts.nft, DeploymentEnv.answer_blank]
  | privateTransfer tokenId newStealthOwner nullifier zkProof =>
    simp only [callNft, ProtonPrivateNFT.Call.blank, ProtonPrivateNFT.perform,
      ProtonPrivateNFT.privateTransfer, ProtonPrivateNFT.verifyOwnershipProof,
      DeploymentEnv.nftEnv, trusts.nft, DeploymentEnv.answer_blank]
  | revealMetadata tokenId viewKey zkProof =>
    simp only [callNft, ProtonPrivateNFT.Call.blank, ProtonPrivateNFT.perform,
      ProtonPrivateNFT.revealMetadata, ProtonPrivateNFT.verifyViewKey, DeploymentEnv.nftEnv,
      trusts.nft, DeploymentEnv.answer_blank]
  | _ => rfl

theorem callBridge_blank (trusts : Trusts env state) (caller : Address) (block : BlockContext)
    (call : ProtonBridge.Call) :
    callBridge env state caller block call.blank = callBridge env state caller block call := by
  cases call with
  | initiatePrivateTransfer targetChain stealthReceiver asset encryptedAmount amountCommitment
      nullifier zkProof =>
    simp only [callBridge, ProtonBridge.Call.blank, ProtonBridge.perform,
      ProtonBridge.initiatePrivateTransfer, ProtonBridge.verifyBridgeAmountProof,
      DeploymentEnv.bridgeEnv, trusts.bridge, DeploymentEnv.answer_blank]
  | signTransfer transferId signature merkleProof =>
    simp only [callBridge, ProtonBridge.Call.blank, ProtonBridge.perform,
      ProtonBridge.signTransfer, ProtonBridge.verifyMerkleProof, DeploymentEnv.bridgeEnv,
      trusts.bridge, DeploymentEnv.answer_blank]
  | updateMerkleRoot chainId newRoot zkProof =>
    simp only [callBridge, ProtonBridge.Call.blank, ProtonBridge.perform,
      ProtonBridge.updateMerkleRoot, ProtonBridge.verifyMerkleUpdateProof, DeploymentEnv.bridgeEnv,
      trusts.bridge, DeploymentEnv.answer_blank]
  | _ => rfl

theorem perform_blank (trusts : Trusts env state) (input : Input World) :
    perform env state input.blank = perform env state input := by
  cases input with
  | token caller call => exact callToken_blank trusts caller call
  | privateSwap caller tokenIn tokenOut nullifier encryptedAmountIn encryptedAmountOut
      minAmountOutCommitment zkProof =>
    simp only [perform, callDex, Input.blank, ProtonDEX.performOrder, ProtonDEX.performPrivate,
      ProtonDEX.privateSwap, ProtonDEX.verifySwapProof, DeploymentEnv.dexEnv,
      DeploymentEnv.answer_blank]
  | staking caller now call => exact callStaking_blank trusts caller now call
  | nft caller timestamp call => exact callNft_blank trusts caller timestamp call
  | bridge caller block call => exact callBridge_blank trusts caller block call
  | _ => rfl

theorem run_blank (trusts : Trusts env state) {inputs : List (Input World)}
    (keeps : ∀ input ∈ inputs, KeepsVerifier env input) :
    Runs.run (step env) state (inputs.map Input.blank) = Runs.run (step env) state inputs := by
  induction inputs generalizing state with
  | nil => rfl
  | cons input rest ih =>
    have now : KeepsVerifier env input := keeps input List.mem_cons_self
    have later := List.forall_mem_of_forall_mem_cons keeps
    have same : step env state input.blank = step env state input := by
      rw [step, Transactions.step, Transactions.step, perform_blank trusts]
    have kept : Trusts env (step env state input).2 :=
      Transactions.step_keeps trusts fun next => trusts.perform now
    rw [List.map_cons, Runs.run_cons, Runs.run_cons, same, ih kept later]

end Blank

/-- Where calls differ only in the proofs that they hand to the verifier, and each of these is long
enough exactly where the other one is, every call of a run is answered alike and the run ends in
the same state. -/
theorem proofs_read_by_length (env : DeploymentEnv World) (state : Deployment World)
    (trusts : Trusts env state) (inputs inputs' : List (Input World))
    (keeps : ∀ input ∈ inputs, KeepsVerifier env input)
    (alike : inputs.map Input.blank = inputs'.map Input.blank) :
    Runs.run (step env) state inputs = Runs.run (step env) state inputs' := by
  have keeps' : ∀ input ∈ inputs', KeepsVerifier env input := by
    intro input listed
    have blank : input.blank ∈ inputs.map Input.blank := by
      rw [alike]
      exact List.mem_map_of_mem listed
    obtain ⟨other, listed', same⟩ := List.mem_map.mp blank
    rw [← keepsVerifier_blank, ← same, keepsVerifier_blank]
    exact keeps other listed'
  rw [← run_blank trusts keeps, ← run_blank trusts keeps', alike]

theorem Sample.blank_transfer {proof proof' : Bytes} (long : 256 ≤ proof.length)
    (long' : 256 ≤ proof'.length) : (transfer proof).blank = (transfer proof').blank := by
  simp only [transfer, Input.blank, ProtonPrivateToken.Call.blank, ProtonZKVerifier.blank,
    if_pos long, if_pos long']

/-- A private transfer with a proof of ones, and with a longer one of twos. -/
theorem proofs_read_by_length_sample :
    Runs.run (step Sample.env) Sample.start
        [.setVerificationKey Sample.key, Sample.transfer (List.replicate 256 1)] =
      Runs.run (step Sample.env) Sample.start
        [.setVerificationKey Sample.key, Sample.transfer (List.replicate 300 2)] := by
  have alike : (Sample.transfer (List.replicate 256 1)).blank =
      (Sample.transfer (List.replicate 300 2)).blank := by
    apply Sample.blank_transfer
    · rw [List.length_replicate]
    · rw [List.length_replicate]
      decide
  apply proofs_read_by_length Sample.env Sample.start (trusts_deployed _ _ _ _)
  · decide +kernel
  · rw [List.map_cons, List.map_cons, List.map_cons, List.map_cons, alike]

end Deployment

end ProtonChain.Solidity
