import ProtonChain.Contracts.DexPrivate
import ProtonChain.Contracts.Staking
import ProtonChain.Library.History
import ProtonChain.Solidity.BridgeCalls
import ProtonChain.Solidity.DexPrivate

/-! Private calls whose nullifier is not recorded.

Four entry points take a nullifier and hand it to the verifier or ignore it. Whether they accept
a call depends on the other checks only, so nothing but these keeps a nullifier from coming
twice.
-/

set_option autoImplicit false

namespace ProtonChain

open Checked

/-! ## Private transfers of the bridge contract -/

namespace Solidity.ProtonBridge

section Accepts
variable {World : Type} (env : BridgeEnv World)

def AcceptsPrivateTransfer (nullifier : Hash) (state : State World) (input : Input World) :
    Prop :=
  Transactions.Succeeds (perform env) state input ∧
    ∃ caller block targetChain stealthReceiver asset encryptedAmount amountCommitment zkProof,
      input = .call caller block (.initiatePrivateTransfer targetChain stealthReceiver asset
        encryptedAmount amountCommitment nullifier zkProof)

/-- What a private transfer is checked for: a supported chain and a proof, which is not about the
nullifier, and that the number of locks can grow. -/
structure Initiable (state : State World) (targetChain : U256) (asset : Address)
    (amountCommitment : Hash) (zkProof : Bytes) : Prop where
  active : (state.bridge.supportedChain targetChain).isActive = true
  proved : verifyBridgeAmountProof env state asset amountCommitment zkProof = .ok true
  room : (state.bridge.lockedAsset (assetKey env.keccak256 targetChain asset)).toNat + 1 < 2 ^ 256

def PassesPrivateTransfer (nullifier : Hash) (state : State World) (input : Input World) :
    Prop :=
  ∃ caller block targetChain stealthReceiver asset encryptedAmount amountCommitment zkProof,
    input = .call caller block (.initiatePrivateTransfer targetChain stealthReceiver asset
        encryptedAmount amountCommitment nullifier zkProof) ∧
      Initiable env state targetChain asset amountCommitment zkProof

variable {env} {state : State World} {nullifier : Hash} {input : Input World}

theorem succeeds_privateTransfer_iff {caller : Address} {block : BlockContext}
    {targetChain : U256} {stealthReceiver : Hash} {asset : Address}
    {encryptedAmount amountCommitment : Hash} {zkProof : Bytes} :
    Transactions.Succeeds (perform env) state (.call caller block (.initiatePrivateTransfer
        targetChain stealthReceiver asset encryptedAmount amountCommitment nullifier zkProof)) ↔
      Initiable env state targetChain asset amountCommitment zkProof := by
  constructor
  · rintro ⟨next, performed⟩
    simp only [perform, initiatePrivateTransfer, bind_eq_ok, ensure_eq_ok, add_eq_ok_iff_fits,
      pure_eq_ok] at performed
    obtain ⟨-, ⟨-, active, valid, proved, -, rfl, -, ⟨room, -⟩, -⟩, -⟩ := performed
    exact ⟨active, proved, room⟩
  · rintro ⟨active, proved, room⟩
    simp only [Transactions.Succeeds, perform, initiatePrivateTransfer, bind_eq_ok, ensure_eq_ok,
      add_eq_ok_iff_fits, pure_eq_ok]
    exact ⟨_, _, ⟨(), active, true, proved, (), rfl, _, ⟨room, rfl⟩, rfl⟩, rfl⟩

theorem acceptsPrivateTransfer_iff : AcceptsPrivateTransfer env nullifier state input ↔
    PassesPrivateTransfer env nullifier state input := by
  constructor
  · rintro ⟨succeeds, caller, block, targetChain, receiver, asset, amount, commitment, proof, rfl⟩
    exact ⟨caller, block, targetChain, receiver, asset, amount, commitment, proof, rfl,
      succeeds_privateTransfer_iff.mp succeeds⟩
  · rintro ⟨caller, block, targetChain, receiver, asset, amount, commitment, proof, rfl, initiable⟩
    exact ⟨succeeds_privateTransfer_iff.mpr initiable, caller, block, targetChain, receiver, asset,
      amount, commitment, proof, rfl⟩

variable (env) in
def HasRoom (state : State World) : Input World → Prop
  | .call _ _ (.initiatePrivateTransfer targetChain _ asset _ _ _ _) =>
    (state.bridge.lockedAsset (assetKey env.keccak256 targetChain asset)).toNat + 1 < 2 ^ 256
  | _ => True

/-- An accepted transfer only counts a lock, so it is accepted again while the count has room. -/
theorem AcceptsPrivateTransfer.again (accepts : AcceptsPrivateTransfer env nullifier state input)
    (room : HasRoom env (step env state input).2 input) :
    AcceptsPrivateTransfer env nullifier (step env state input).2 input := by
  obtain ⟨⟨next, performed⟩, caller, block, targetChain, receiver, asset, amount, commitment, proof,
    rfl⟩ := accepts
  have initiable := succeeds_privateTransfer_iff.mp ⟨next, performed⟩
  rw [step, Transactions.step_of_ok performed] at room ⊢
  simp only [perform, bind_eq_ok, pure_eq_ok] at performed
  obtain ⟨⟨transferId, after⟩, done, rfl⟩ := performed
  obtain ⟨-, world, locked, -, bridge⟩ := initiatePrivateTransfer_ok done
  refine acceptsPrivateTransfer_iff.mpr ⟨caller, block, targetChain, receiver, asset, amount,
    commitment, proof, rfl, ?_, ?_, room⟩
  · rw [bridge]
    exact initiable.active
  · rw [verifyBridgeAmountProof, bridge, world]
    exact initiable.proved

end Accepts

end Solidity.ProtonBridge

/-! ## Private stakes on the chain's own staking contract -/

namespace Contracts.ProtonStaking

section Accepts
variable {World : Type} (host : StakingHost World)

def AcceptsPrivateStake (nullifier : Hash) (state : State World) (input : Input World) : Prop :=
  Transactions.Succeeds (perform host) state input ∧
    ∃ caller height validator encryptedAmount zkProof commitment,
      input = .call caller height
        (.privateStake validator encryptedAmount zkProof commitment nullifier)

def PassesPrivateStake (nullifier : Hash) (state : State World) (input : Input World) : Prop :=
  ∃ caller height validator encryptedAmount zkProof commitment,
    input = .call caller height
        (.privateStake validator encryptedAmount zkProof commitment nullifier) ∧
      host.verifyStakeProof state.world zkProof validator commitment nullifier = true ∧
      validator ∈ state.staking.validators

variable {host} {state next : State World} {nullifier : Hash} {input : Input World}

theorem privateStake_eq_ok {validator : Address} {encryptedAmount zkProof : Bytes}
    {commitment : Hash} :
    privateStake host state validator encryptedAmount zkProof commitment nullifier = .ok next ↔
      host.verifyStakeProof state.world zkProof validator commitment nullifier = true ∧
        ∃ info, state.staking.validators.lookup validator = some info ∧
          next = { state with
            staking := { state.staking with
              encryptedDelegations :=
                state.staking.encryptedDelegations.insert commitment encryptedAmount
              validators := state.staking.validators.insert validator
                { info with isActive := true } } } := by
  simp only [privateStake, bind_eq_ok, ensure_eq_ok, demand_eq_ok, pure_eq_ok]
  constructor
  · rintro ⟨-, proved, info, found, rfl⟩
    exact ⟨proved, info, found, rfl⟩
  · rintro ⟨proved, info, found, rfl⟩
    exact ⟨(), proved, info, found, rfl⟩

theorem acceptsPrivateStake_iff : AcceptsPrivateStake host nullifier state input ↔
    PassesPrivateStake host nullifier state input := by
  constructor
  · rintro ⟨⟨next, performed⟩, caller, height, validator, amount, proof, commitment, rfl⟩
    obtain ⟨proved, info, found, -⟩ := privateStake_eq_ok.mp performed
    exact ⟨caller, height, validator, amount, proof, commitment, rfl, proved,
      Finmap.mem_of_lookup_eq_some found⟩
  · rintro ⟨caller, height, validator, amount, proof, commitment, rfl, proved, found⟩
    obtain ⟨info, found⟩ := Finmap.mem_iff.mp found
    exact ⟨⟨_, privateStake_eq_ok.mpr ⟨proved, info, found, rfl⟩⟩, caller, height, validator,
      amount, proof, commitment, rfl⟩

/-- An accepted stake leaves the validator registered, so it is accepted again. -/
theorem AcceptsPrivateStake.again (accepts : AcceptsPrivateStake host nullifier state input) :
    AcceptsPrivateStake host nullifier (step host state input).2 input := by
  obtain ⟨⟨next, performed⟩, caller, height, validator, amount, proof, commitment, rfl⟩ := accepts
  obtain ⟨proved, info, -, rfl⟩ := privateStake_eq_ok.mp performed
  rw [step, Transactions.step_of_ok performed]
  refine acceptsPrivateStake_iff.mpr ⟨caller, height, validator, amount, proof, commitment, rfl,
    proved, ?_⟩
  exact Finmap.mem_insert.mpr (.inl rfl)

end Accepts

end Contracts.ProtonStaking

namespace Contracts

/-- A run accepts each nullifier once exactly if no two of its private calls that pass the other
checks carry the same one, and an accepted call passes them again: at once, on the bridge while the
number of locks can grow, and on the chain's own exchange where the host answers as before. -/
theorem nullifiers_unprotected {World : Type} (dexEnv : Solidity.PrivateDexEnv World)
    (bridgeEnv : Solidity.BridgeEnv World) (dexHost : PrivateDexHost World)
    (stakingHost : StakingHost World) :
    Runs.Unprotected (Solidity.ProtonDEX.privateStep dexEnv)
      (Solidity.ProtonDEX.AcceptsSwap dexEnv) (Solidity.ProtonDEX.PassesSwap dexEnv)
      (fun state input next => next = (Solidity.ProtonDEX.privateStep dexEnv state input).2) ∧
    Runs.Unprotected (Solidity.ProtonBridge.step bridgeEnv)
      (Solidity.ProtonBridge.AcceptsPrivateTransfer bridgeEnv)
      (Solidity.ProtonBridge.PassesPrivateTransfer bridgeEnv)
      (fun state input next => next = (Solidity.ProtonBridge.step bridgeEnv state input).2 ∧
        Solidity.ProtonBridge.HasRoom bridgeEnv next input) ∧
    Runs.Unprotected (ProtonDEX.privateStep dexHost) (ProtonDEX.AcceptsSwap dexHost)
      (ProtonDEX.PassesSwap dexHost)
      (fun state input next =>
        next = { (ProtonDEX.privateStep dexHost state input).2 with world := state.world }) ∧
    Runs.Unprotected (ProtonStaking.step stakingHost)
      (ProtonStaking.AcceptsPrivateStake stakingHost)
      (ProtonStaking.PassesPrivateStake stakingHost)
      (fun state input next => next = (ProtonStaking.step stakingHost state input).2) := by
  refine ⟨⟨fun start inputs => ?_, ?_⟩, ⟨fun start inputs => ?_, ?_⟩,
    ⟨fun start inputs => ?_, ?_⟩, ⟨fun start inputs => ?_, ?_⟩⟩
  · exact Runs.once_congr _ fun nullifier state input => Solidity.ProtonDEX.acceptsSwap_iff
  · rintro nullifier state input next accepts rfl
    exact accepts.again
  · exact Runs.once_congr _ fun nullifier state input =>
      Solidity.ProtonBridge.acceptsPrivateTransfer_iff
  · rintro nullifier state input next accepts ⟨rfl, room⟩
    exact accepts.again room
  · exact Runs.once_congr _ fun nullifier state input => ProtonDEX.acceptsSwap_iff
  · rintro nullifier state input next accepts rfl
    exact accepts.again
  · exact Runs.once_congr _ fun nullifier state input => ProtonStaking.acceptsPrivateStake_iff
  · rintro nullifier state input next accepts rfl
    exact accepts.again

/-! ## Private calls made twice -/

namespace Sample

/-- The exchange of the sample with a verifier that accepts every proof. -/
def dexEnv : Solidity.PrivateDexEnv Solidity.Sample.Ledger where
  toEnv := Solidity.Sample.env
  zkVerifier := Sample.address 7
  verifySwap _ _ _ _ _ _ _ := some Solidity.trueWord

def dexSetup : List (Solidity.ProtonDEX.PrivateInput Solidity.Sample.Ledger) :=
  Solidity.Sample.opening.map .dex

def solidityDexSwap : Solidity.ProtonDEX.PrivateInput Solidity.Sample.Ledger :=
  .privateSwap (Sample.address 3) (Sample.address 1) (Sample.address 2) Hash.zero Hash.zero
    Hash.zero Hash.zero []

/-- The bridge of the sample asks a verifier that accepts every proof. -/
def privateTransfer : Solidity.ProtonBridge.Input Solidity.Sample.Ledger :=
  Solidity.ProtonBridge.Sample.call 3 (.initiatePrivateTransfer 1 Hash.zero (Sample.address 1)
    Hash.zero Hash.zero Hash.zero [])

/-- A host that accepts every proof and moves hidden amounts out of sight. -/
def dexHost : PrivateDexHost Unit where
  selfAddress := Sample.address 8
  transferFrom _ _ _ _ _ := some ()
  mintLpToken _ _ _ := some ()
  verifySwapProof _ _ _ _ _ := true
  verifyBalanceProof _ _ _ _ := true
  privateTransfer _ _ _ _ _ := some ()

def dex : ProtonDEX.State Unit := ⟨ProtonDEX.new 30 (Sample.address 7), (), []⟩

def createPair : ProtonDEX.PrivateInput Unit :=
  .dex (.call (Sample.address 9) (.createPair (Sample.address 1) (Sample.address 2)))

def dexSwap : ProtonDEX.PrivateInput Unit :=
  .privateSwap (Sample.address 3) (Sample.address 1) (Sample.address 2) [] Hash.zero [] []
    Hash.zero []

def staking : ProtonStaking.State Unit := ⟨ProtonStaking.new 10000 500 100, ()⟩

def register : ProtonStaking.Input Unit := .call (Sample.address 4) 0 (.registerValidator 500)

def privateStake : ProtonStaking.Input Unit :=
  .call (Sample.address 3) 0 (.privateStake (Sample.address 4) [] [] Hash.zero Hash.zero)

end Sample

/-- Each of the four contracts accepts the zero nullifier twice. -/
theorem nullifier_accepted_twice :
    ¬ Runs.Once (Solidity.ProtonDEX.privateStep Sample.dexEnv)
        (Solidity.ProtonDEX.AcceptsSwap Sample.dexEnv) Solidity.Sample.deployed
        (Sample.dexSetup ++ [Sample.solidityDexSwap, Sample.solidityDexSwap]) ∧
      ¬ Runs.Once (Solidity.ProtonBridge.step (Solidity.ProtonBridge.Sample.env 1))
        (Solidity.ProtonBridge.AcceptsPrivateTransfer (Solidity.ProtonBridge.Sample.env 1))
        (Solidity.ProtonBridge.Sample.deployed 1)
        (Solidity.ProtonBridge.Sample.setup ++ [Sample.privateTransfer, Sample.privateTransfer]) ∧
      ¬ Runs.Once (ProtonDEX.privateStep Sample.dexHost) (ProtonDEX.AcceptsSwap Sample.dexHost)
        Sample.dex ([Sample.createPair] ++ [Sample.dexSwap, Sample.dexSwap]) ∧
      ¬ Runs.Once (ProtonStaking.step Sample.stakingHost)
        (ProtonStaking.AcceptsPrivateStake Sample.stakingHost) Sample.staking
        ([Sample.register] ++ [Sample.privateStake, Sample.privateStake]) := by
  refine ⟨?_, ?_, ?_, ?_⟩
  · have accepts : Solidity.ProtonDEX.AcceptsSwap Sample.dexEnv Hash.zero
        (Runs.run (Solidity.ProtonDEX.privateStep Sample.dexEnv) Solidity.Sample.deployed
          Sample.dexSetup).2 Sample.solidityDexSwap :=
      ⟨Transactions.succeeds_of_step (by decide +kernel), _, _, _, _, _, _, _, rfl⟩
    exact Runs.not_once_of_again _ accepts accepts.again
  · have accepts : Solidity.ProtonBridge.AcceptsPrivateTransfer
        (Solidity.ProtonBridge.Sample.env 1) Hash.zero
        (Runs.run (Solidity.ProtonBridge.step (Solidity.ProtonBridge.Sample.env 1))
          (Solidity.ProtonBridge.Sample.deployed 1) Solidity.ProtonBridge.Sample.setup).2
        Sample.privateTransfer :=
      ⟨Transactions.succeeds_of_step (by decide +kernel), _, _, _, _, _, _, _, _, rfl⟩
    refine Runs.not_once_of_again _ accepts (accepts.again ?_)
    unfold Sample.privateTransfer Solidity.ProtonBridge.Sample.call Solidity.ProtonBridge.HasRoom
    decide +kernel
  · have accepts : ProtonDEX.AcceptsSwap Sample.dexHost Hash.zero
        (Runs.run (ProtonDEX.privateStep Sample.dexHost) Sample.dex [Sample.createPair]).2
        Sample.dexSwap :=
      ⟨Transactions.succeeds_of_step (by decide +kernel), _, _, _, _, _, _, _, _, rfl⟩
    exact Runs.not_once_of_again _ accepts accepts.again
  · have accepts : ProtonStaking.AcceptsPrivateStake Sample.stakingHost Hash.zero
        (Runs.run (ProtonStaking.step Sample.stakingHost) Sample.staking [Sample.register]).2
        Sample.privateStake :=
      ⟨Transactions.succeeds_of_step (by decide +kernel), _, _, _, _, _, _, rfl⟩
    exact Runs.not_once_of_again _ accepts accepts.again

end Contracts

end ProtonChain
