import ProtonChain.Solidity.BridgeBooks
import ProtonChain.Solidity.Deployment
import ProtonChain.Solidity.PrivateNftTokens
import ProtonChain.Solidity.PrivateTokenSpending
import ProtonChain.Solidity.StakingCalls

/-! Which verifier the contracts of a deployment ask, and what they ask it.

A contract asks the verifier it was deployed with until its owner names another one. Each call
with a proof asks one question, and it goes through only if the answer is `true`.
-/

set_option autoImplicit false

namespace ProtonChain.Solidity

open Checked ProtonZKVerifier

/-! ## The verifier of each contract -/

namespace ProtonPrivateToken
variable {World : Type} {env : TokenEnv World} {caller : Address} {state next : State World}

def Call.zkVerifier (before : Address) : Call → Address
  | .setZKVerifier newVerifier => newVerifier
  | _ => before

theorem zkVerifier_spendEach {entries : List PrivateTransfer}
    (done : spendEach entries state = .ok next) :
    next.token.zkVerifier = state.token.zkVerifier := by
  induction entries generalizing state with
  | nil =>
    obtain rfl := Except.ok.inj done
    rfl
  | cons entry rest ih =>
    simp only [spendEach, bind_eq_ok] at done
    obtain ⟨-, -, done⟩ := done
    exact (ih done).trans rfl

theorem zkVerifier_perform {call : Call}
    (performed : perform env state (.call caller call) = .ok next) :
    next.token.zkVerifier = call.zkVerifier state.token.zkVerifier := by
  cases call with
  | privateTransfer nullifier commitment root encryptedAmount proof =>
    obtain ⟨-, -, -, rfl⟩ := privateTransfer_eq_ok.mp performed
    rfl
  | batchPrivateTransfer nullifiers commitments root encryptedAmounts proof =>
    obtain ⟨-, -, spent, done, rfl⟩ := batchPrivateTransfer_eq_ok.mp performed
    change spent.token.zkVerifier = state.token.zkVerifier
    exact zkVerifier_spendEach done
  | registerViewKey viewKey =>
    obtain rfl := Except.ok.inj performed
    rfl
  | updateBalanceCommitment account newCommitment =>
    obtain ⟨-, rfl⟩ := updateBalanceCommitment_eq_ok.mp performed
    rfl
  | updateMerkleRoot newRoot =>
    obtain ⟨-, rfl⟩ := updateMerkleRoot_eq_ok.mp performed
    rfl
  | setZKVerifier newVerifier =>
    obtain ⟨-, rfl⟩ := setZKVerifier_eq_ok.mp performed
    rfl

end ProtonPrivateToken

namespace ProtonStaking
variable {World : Type} {env : StakingEnv World} {caller : Address} {now : U64}
  {state next : State World}

def Call.zkVerifier (before : Address) : Call → Address
  | .setZKVerifier newVerifier => newVerifier
  | _ => before

def Call.nullifiers (before : Finset Hash) : Call → Finset Hash
  | .privateStake _ _ _ nullifier _ => insert nullifier before
  | _ => before

theorem zkVerifier_perform {call : Call}
    (performed : perform env state (.call caller now call) = .ok next) :
    next.staking.zkVerifier = call.zkVerifier state.staking.zkVerifier ∧
      next.staking.privateDelegationNullifiers =
        call.nullifiers state.staking.privateDelegationNullifiers := by
  cases call with
  | registerValidator commission =>
    obtain ⟨-, record, -, -, -, -, rfl⟩ := registerValidator_ok performed
    exact ⟨rfl, rfl⟩
  | stake target amount =>
    obtain ⟨-, -, delegation, total, record, -, -, -, -, -, -, books⟩ := stake_ok performed
    rw [books]
    exact ⟨rfl, rfl⟩
  | privateStake target encryptedAmount commitment nullifier zkProof =>
    simp only [perform, privateStake, bind_eq_ok, pure_eq_ok] at performed
    obtain ⟨-, -, -, -, -, -, -, -, totalDelegated, -, rfl⟩ := performed
    exact ⟨rfl, rfl⟩
  | unstake target amount =>
    obtain ⟨-, -, delegation, total, record, unlockHeight, -, -, -, -, -, -, -, books⟩ :=
      unstake_ok performed
    rw [books]
    exact ⟨rfl, rfl⟩
  | processUnbonding =>
    obtain ⟨queue, -, books⟩ := processUnbonding_ok performed
    rw [books]
    exact ⟨rfl, rfl⟩
  | distributeRewards validators rewards =>
    obtain ⟨-, ⟨records, epoch, books⟩, -⟩ := distributeRewards_ok performed
    rw [books]
    exact ⟨rfl, rfl⟩
  | claimRewards target =>
    obtain ⟨reward, done⟩ := perform_claimRewards performed
    rw [(claimRewards_ok done).2.1]
    exact ⟨rfl, rfl⟩
  | slashValidator target percentage =>
    obtain ⟨-, -, record, -, -, -, -, books⟩ := slashValidator_ok performed
    rw [books]
    exact ⟨rfl, rfl⟩
  | setMinStake newMinStake =>
    simp only [perform, setMinStake] at performed
    rw [setParameter_ok performed]
    exact ⟨rfl, rfl⟩
  | setUnbondingPeriod newPeriod =>
    simp only [perform, setUnbondingPeriod] at performed
    rw [setParameter_ok performed]
    exact ⟨rfl, rfl⟩
  | setZKVerifier newVerifier =>
    simp only [perform, setZKVerifier] at performed
    rw [setParameter_ok performed]
    exact ⟨rfl, rfl⟩

end ProtonStaking

namespace ProtonPrivateNFT
variable {World : Type} {env : NftEnv World} {caller : Address} {timestamp : U256}
  {state next : State World}

def Call.zkVerifier (before : Address) : Call → Address
  | .setZKVerifier newVerifier => newVerifier
  | _ => before

theorem zkVerifier_perform {call : Call}
    (performed : perform env state (.call caller timestamp call) = .ok next) :
    next.nft.zkVerifier = call.zkVerifier state.nft.zkVerifier := by
  cases perform_effect performed with
  | publiclyMinted _ _ _ _ _ _ _ _ mapped => rw [mapped]; rfl
  | privatelyMinted _ _ _ _ _ _ _ _ _ _ _ mapped => rw [mapped]; rfl
  | publiclyTransferred _ _ _ _ _ _ _ _ _ mapped => rw [mapped]; rfl
  | privatelyTransferred => rfl
  | approved => rfl
  | approvedForAll => rfl
  | revealed => rfl
  | verifierSet => rfl

end ProtonPrivateNFT

namespace ProtonBridge
variable {World : Type} {env : BridgeEnv World} {caller : Address} {block : BlockContext}
  {state next : State World}

def Call.zkVerifier (before : Address) : Call → Address
  | .setZKVerifier newVerifier => newVerifier
  | _ => before

def Call.merkleRoots (before : HashMap U256 Hash) : Call → HashMap U256 Hash
  | .updateMerkleRoot chainId newRoot _ => before.insert chainId newRoot
  | _ => before

theorem zkVerifier_perform {call : Call}
    (performed : perform env state (.call caller block call) = .ok next) :
    next.bridge.zkVerifier = call.zkVerifier state.bridge.zkVerifier ∧
      next.bridge.merkleRoots = call.merkleRoots state.bridge.merkleRoots := by
  cases call with
  | addChain chainId bridgeContract confirmationBlocks =>
    simp only [perform, addChain, bind_eq_ok, pure_eq_ok] at performed
    obtain ⟨-, -, -, -, rfl⟩ := performed
    exact ⟨rfl, rfl⟩
  | addValidator address stake =>
    simp only [perform, addValidator, bind_eq_ok, pure_eq_ok] at performed
    obtain ⟨-, -, -, -, _, -, rfl⟩ := performed
    exact ⟨rfl, rfl⟩
  | initiateTransfer targetChain receiver asset amount =>
    simp only [perform, bind_eq_ok, pure_eq_ok] at performed
    obtain ⟨⟨transferId, _⟩, done, rfl⟩ := performed
    obtain ⟨-, -, -, locked, -, books⟩ := initiateTransfer_ok done
    rw [books]
    exact ⟨rfl, rfl⟩
  | initiatePrivateTransfer targetChain stealthReceiver asset encryptedAmount amountCommitment
      nullifier zkProof =>
    simp only [perform, bind_eq_ok, pure_eq_ok] at performed
    obtain ⟨⟨transferId, _⟩, done, rfl⟩ := performed
    obtain ⟨-, -, locked, -, books⟩ := initiatePrivateTransfer_ok done
    rw [books]
    exact ⟨rfl, rfl⟩
  | signTransfer transferId signature merkleProof =>
    obtain ⟨-, rfl⟩ := signTransfer_eq_ok.mp performed
    exact ⟨rfl, rfl⟩
  | executeTransfer transferId =>
    obtain ⟨-, paid, done, rfl⟩ := executeTransfer_eq_ok.mp performed
    cases done <;> exact ⟨rfl, rfl⟩
  | updateMerkleRoot chainId newRoot zkProof =>
    simp only [perform, updateMerkleRoot, bind_eq_ok, pure_eq_ok] at performed
    obtain ⟨-, -, -, -, rfl⟩ := performed
    exact ⟨rfl, rfl⟩
  | registerWrappedAsset chainId remoteAsset localAsset =>
    simp only [perform, registerWrappedAsset] at performed
    rw [setParameter_ok performed]
    exact ⟨rfl, rfl⟩
  | setValidatorThreshold newThreshold =>
    simp only [perform, setValidatorThreshold] at performed
    rw [setParameter_ok performed]
    exact ⟨rfl, rfl⟩
  | setZKVerifier newVerifier =>
    simp only [perform, setZKVerifier] at performed
    rw [setParameter_ok performed]
    exact ⟨rfl, rfl⟩
  | deactivateChain chainId =>
    simp only [perform, deactivateChain] at performed
    rw [setParameter_ok performed]
    exact ⟨rfl, rfl⟩
  | deactivateValidator address =>
    simp only [perform, deactivateValidator] at performed
    rw [setParameter_ok performed]
    exact ⟨rfl, rfl⟩

end ProtonBridge

/-! ## The verifier of the deployment -/

namespace Deployment

theorem callDex_ok {World : Type} {env : DeploymentEnv World} {state next : Deployment World}
    {input : ProtonDEX.OrderInput World} (performed : callDex env state input = .ok next) :
    ∃ after : ProtonDEX.OrderState World, next = { state with
      world := after.exchange.world
      dex := after.exchange.dex
      encryptedOrders := after.encryptedOrders
      pairOrderHashes := after.pairOrderHashes } := by
  simp only [callDex, bind_eq_ok, pure_eq_ok] at performed
  obtain ⟨after, -, rfl⟩ := performed
  exact ⟨after, rfl⟩

section Trust
variable {World : Type} (env : DeploymentEnv World)

/-- Every contract asks the verifier contract. -/
structure Trusts (state : Deployment World) : Prop where
  token : state.token.zkVerifier = env.zkVerifier
  staking : state.staking.zkVerifier = env.zkVerifier
  nft : state.nft.zkVerifier = env.zkVerifier
  bridge : state.bridge.zkVerifier = env.zkVerifier

/-- No contract is told to ask another verifier. -/
def KeepsVerifier : Input World → Prop
  | .token _ call => call.zkVerifier env.zkVerifier = env.zkVerifier
  | .staking _ _ call => call.zkVerifier env.zkVerifier = env.zkVerifier
  | .nft _ _ call => call.zkVerifier env.zkVerifier = env.zkVerifier
  | .bridge _ _ call => call.zkVerifier env.zkVerifier = env.zkVerifier
  | _ => True

instance decidableKeepsVerifier : DecidablePred (KeepsVerifier env)
  | .token _ call =>
    inferInstanceAs (Decidable (call.zkVerifier env.zkVerifier = env.zkVerifier))
  | .staking _ _ call =>
    inferInstanceAs (Decidable (call.zkVerifier env.zkVerifier = env.zkVerifier))
  | .nft _ _ call =>
    inferInstanceAs (Decidable (call.zkVerifier env.zkVerifier = env.zkVerifier))
  | .bridge _ _ call =>
    inferInstanceAs (Decidable (call.zkVerifier env.zkVerifier = env.zkVerifier))
  | .setVerificationKey _ => inferInstanceAs (Decidable True)
  | .dex _ _ => inferInstanceAs (Decidable True)
  | .privateSwap _ _ _ _ _ _ _ _ => inferInstanceAs (Decidable True)
  | .placeEncryptedOrder _ _ _ _ _ _ _ _ => inferInstanceAs (Decidable True)
  | .cancelOrder _ _ => inferInstanceAs (Decidable True)
  | .outside _ _ => inferInstanceAs (Decidable True)

variable {env} {state next : Deployment World}

theorem trusts_deployed (deployer protonToken : Address) (validatorThreshold : U256)
    (world : World) : Trusts env (deployed env deployer protonToken validatorThreshold world) :=
  ⟨rfl, rfl, rfl, rfl⟩

theorem Trusts.perform {input : Input World} (trusts : Trusts env state)
    (keeps : KeepsVerifier env input) (performed : perform env state input = .ok next) :
    Trusts env next := by
  obtain ⟨token, staking, nft, bridge⟩ := trusts
  cases input with
  | setVerificationKey vk =>
    obtain rfl := Except.ok.inj performed
    exact ⟨token, staking, nft, bridge⟩
  | token caller call =>
    simp only [Deployment.perform, callToken, bind_eq_ok, lift_eq_ok, pure_eq_ok] at performed
    obtain ⟨after, performed, rfl⟩ := performed
    have named := ProtonPrivateToken.zkVerifier_perform performed
    rw [token] at named
    exact ⟨named.trans keeps, staking, nft, bridge⟩
  | dex | privateSwap | placeEncryptedOrder | cancelOrder =>
    obtain ⟨after, rfl⟩ := callDex_ok performed
    exact ⟨token, staking, nft, bridge⟩
  | staking caller now call =>
    simp only [Deployment.perform, callStaking, bind_eq_ok, lift_eq_ok, pure_eq_ok] at performed
    obtain ⟨after, performed, rfl⟩ := performed
    have named := (ProtonStaking.zkVerifier_perform performed).1
    rw [staking] at named
    exact ⟨token, named.trans keeps, nft, bridge⟩
  | nft caller timestamp call =>
    simp only [Deployment.perform, callNft, bind_eq_ok, lift_eq_ok, pure_eq_ok] at performed
    obtain ⟨after, performed, rfl⟩ := performed
    have named := ProtonPrivateNFT.zkVerifier_perform performed
    rw [nft] at named
    exact ⟨token, staking, named.trans keeps, bridge⟩
  | bridge caller block call =>
    simp only [Deployment.perform, callBridge, bind_eq_ok, lift_eq_ok, pure_eq_ok] at performed
    obtain ⟨after, performed, rfl⟩ := performed
    have named := (ProtonBridge.zkVerifier_perform performed).1
    rw [bridge] at named
    exact ⟨token, staking, nft, named.trans keeps⟩
  | outside world owners =>
    obtain rfl := Except.ok.inj performed
    exact ⟨token, staking, nft, bridge⟩

end Trust

end Deployment

end ProtonChain.Solidity
