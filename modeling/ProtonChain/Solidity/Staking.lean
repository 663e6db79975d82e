import ProtonChain.Library.Checked
import ProtonChain.Library.Mapping
import ProtonChain.Library.Transactions
import ProtonChain.Solidity.Chain

/-! The staking contract: validators, delegations, the unbonding queue and rewards.

Several totals of one validator are kept next to each other, and each call writes its own
choice of them. The time of a block is a 64-bit number, as in its header.
-/

set_option autoImplicit false

namespace ProtonChain.Solidity

open Checked

structure Validator where
  owner : Address
  stake : U256
  commission : U256
  isActive : Bool
  totalDelegated : U256
  uptime : U256
  blocksProposed : U256
  rewardsAccumulated : U256
  encryptedRewards : Hash
  deriving DecidableEq

/-- A mapping reads this where nobody is registered. -/
def Validator.empty : Validator where
  owner := Address.zero
  stake := 0
  commission := 0
  isActive := false
  totalDelegated := 0
  uptime := 0
  blocksProposed := 0
  rewardsAccumulated := 0
  encryptedRewards := Hash.zero

structure UnbondingEntry where
  delegator : Address
  validator : Address
  amount : U256
  unlockHeight : U256
  processed : Bool
  deriving DecidableEq

inductive StakingError where
  | ownableUnauthorizedAccount
  | insufficientStake
  | validatorNotFound
  | validatorAlreadyExists
  | commissionTooHigh
  | invalidDelegation
  | invalidZKProof
  deriving DecidableEq, Repr

/-- The mappings to `bool` are given by the keys that they map to `true`. -/
structure ProtonStaking where
  owner : Address
  protonToken : Address
  validators : HashMap Address Validator
  isValidator : Finset Address
  validatorList : List Address
  delegations : HashMap Address (HashMap Address U256)
  totalDelegatedTo : HashMap Address U256
  encryptedDelegations : HashMap (Address × Address) Hash
  privateDelegationNullifiers : Finset Hash
  unbondingQueue : List UnbondingEntry
  minStake : U256
  commissionBase : U256
  unbondingPeriod : U256
  epoch : U256
  zkVerifier : Address

/-- A chain whose verifier contract answers static calls about the proofs of private stakes. -/
structure StakingEnv (World : Type) extends Env World where
  verifyStake : World → Address → Address → Hash → Hash → Bytes → Option Bytes

namespace ProtonStaking

def feeDenominator : U256 := 10000

/-- `1e18`, the unit of shares and tokens. -/
def ether : U256 := 1000000000000000000

def new (deployer protonToken zkVerifier : Address) : ProtonStaking where
  owner := deployer
  protonToken := protonToken
  validators := ∅
  isValidator := ∅
  validatorList := []
  delegations := ∅
  totalDelegatedTo := ∅
  encryptedDelegations := ∅
  privateDelegationNullifiers := ∅
  unbondingQueue := []
  minStake := 10000 * ether
  commissionBase := 500
  unbondingPeriod := 604800
  epoch := 0
  zkVerifier := zkVerifier

/-! ## Mappings -/

def validator (staking : ProtonStaking) (address : Address) : Validator :=
  (staking.validators.lookup address).getD Validator.empty

def setValidator (staking : ProtonStaking) (address : Address) (validator : Validator) :
    ProtonStaking :=
  { staking with validators := staking.validators.insert address validator }

def delegation (staking : ProtonStaking) (delegator validator : Address) : U256 :=
  Mapping.cell staking.delegations delegator validator

def delegatedTo (staking : ProtonStaking) (validator : Address) : U256 :=
  Mapping.read staking.totalDelegatedTo validator

def setDelegation (staking : ProtonStaking) (delegator validator : Address)
    (amount total : U256) : ProtonStaking :=
  { staking with
    delegations := Mapping.write staking.delegations delegator validator amount
    totalDelegatedTo := staking.totalDelegatedTo.insert validator total }

@[simp] theorem validator_setValidator (staking : ProtonStaking) (address : Address)
    (validator : Validator) (other : Address) :
    (staking.setValidator address validator).validator other =
      if other = address then validator else staking.validator other := by
  rw [ProtonStaking.validator, setValidator, FiniteMap.lookup_insert]
  split <;> rfl

@[simp] theorem validator_setDelegation (staking : ProtonStaking) (delegator address : Address)
    (amount total : U256) (other : Address) :
    (staking.setDelegation delegator address amount total).validator other =
      staking.validator other := rfl

@[simp] theorem delegation_setValidator (staking : ProtonStaking) (address : Address)
    (validator : Validator) (delegator other : Address) :
    (staking.setValidator address validator).delegation delegator other =
      staking.delegation delegator other := rfl

@[simp] theorem delegatedTo_setValidator (staking : ProtonStaking) (address : Address)
    (validator : Validator) (other : Address) :
    (staking.setValidator address validator).delegatedTo other =
      staking.delegatedTo other := rfl

theorem delegation_setDelegation (staking : ProtonStaking) (delegator address : Address)
    (amount total : U256) (other other' : Address) :
    (staking.setDelegation delegator address amount total).delegation other other' =
      if other = delegator ∧ other' = address then amount else staking.delegation other other' :=
  Mapping.cell_write staking.delegations delegator address amount other other'

theorem delegatedTo_setDelegation (staking : ProtonStaking) (delegator address : Address)
    (amount total : U256) (other : Address) :
    (staking.setDelegation delegator address amount total).delegatedTo other =
      if other = address then total else staking.delegatedTo other :=
  Mapping.read_insert staking.totalDelegatedTo address total other

/-! ## Views -/

def calculateRewards (staking : ProtonStaking) (delegator address : Address) :
    Outcome StakingError U256 :=
  let delegation := staking.delegation delegator address
  if delegation = 0 then .ok 0
  else do
    let validator := staking.validator address
    let share ← mulDiv delegation ether validator.totalDelegated
    mulDiv share validator.rewardsAccumulated ether

/-! ## Calls -/

structure State (World : Type) where
  staking : ProtonStaking
  world : World

section Calls
variable {World : Type}

section Tokens
variable (env : Env World) (token : Address)

def transferFrom (owner : Address) (amount : U256) (world : World) : Outcome StakingError World :=
  match env.erc20.transferFrom world token env.self owner env.self amount with
  | some world => .ok world
  | none => .error (.reason "Transfer failed")

def transfer (recipient : Address) (amount : U256) (world : World) :
    Outcome StakingError World :=
  match env.erc20.transfer world token env.self recipient amount with
  | some world => .ok world
  | none => .error (.reason "Transfer failed")

/-- The scan of the queue: what is unlocked and not processed is paid and marked. -/
def processEntries (now : U256) :
    List UnbondingEntry → World → Outcome StakingError (List UnbondingEntry × World)
  | [], world => .ok ([], world)
  | entry :: rest, world =>
    if entry.processed = false ∧ entry.unlockHeight.toNat ≤ now.toNat then do
      let world ← transfer env token entry.delegator entry.amount world
      let (rest, world) ← processEntries now rest world
      return ({ entry with processed := true } :: rest, world)
    else do
      let (rest, world) ← processEntries now rest world
      return (entry :: rest, world)

end Tokens

variable (env : StakingEnv World) (caller : Address) (state : State World)

def registerValidator (commission : U256) : Outcome StakingError (State World) := do
  ensure (commission.toNat ≤ 10000) (.raised .commissionTooHigh)
  ensure (caller ∉ state.staking.isValidator) (.raised .validatorAlreadyExists)
  let staking := state.staking.setValidator caller
    { Validator.empty with
      owner := caller
      commission := if state.staking.commissionBase < commission then commission
        else state.staking.commissionBase }
  return { state with
    staking := { staking with
      isValidator := insert caller staking.isValidator
      validatorList := staking.validatorList ++ [caller] } }

def stake (address : Address) (amount : U256) : Outcome StakingError (State World) := do
  let staking := state.staking
  ensure (address ∈ staking.isValidator) (.raised .validatorNotFound)
  ensure (¬ (amount < staking.minStake ∧ (staking.validator address).stake = 0))
    (.raised .insufficientStake)
  let world ← transferFrom env.toEnv staking.protonToken caller amount state.world
  let delegation ← add (staking.delegation caller address) amount
  let total ← add (staking.delegatedTo address) amount
  let validator := staking.validator address
  let staked ← add validator.stake amount
  let totalDelegated ← add validator.totalDelegated amount
  return ⟨(staking.setDelegation caller address delegation total).setValidator address
    { validator with
      stake := staked
      totalDelegated := totalDelegated
      isActive := if staking.minStake ≤ staked then true else validator.isActive }, world⟩

def verifyStakeProof (validator : Address) (commitment nullifier : Hash) (proof : Bytes) :
    Outcome StakingError Bool :=
  staticAnswer (env.verifyStake state.world state.staking.zkVerifier validator commitment nullifier
    proof)

def privateStake (address : Address) (encryptedAmount commitment nullifier : Hash)
    (zkProof : Bytes) : Outcome StakingError (State World) := do
  let staking := state.staking
  ensure (address ∈ staking.isValidator) (.raised .validatorNotFound)
  ensure (nullifier ∉ staking.privateDelegationNullifiers) (.raised .invalidDelegation)
  let valid ← verifyStakeProof env state address commitment nullifier zkProof
  ensure valid (.raised .invalidZKProof)
  let validator := staking.validator address
  let totalDelegated ← add validator.totalDelegated 1
  let staking := staking.setValidator address { validator with
    isActive := true
    totalDelegated := totalDelegated }
  return { state with
    staking := { staking with
      privateDelegationNullifiers := insert nullifier staking.privateDelegationNullifiers
      encryptedDelegations :=
        staking.encryptedDelegations.insert (caller, address) encryptedAmount } }

def unstake (now : U64) (address : Address) (amount : U256) :
    Outcome StakingError (State World) := do
  let staking := state.staking
  ensure (address ∈ staking.isValidator) (.raised .validatorNotFound)
  ensure (amount.toNat ≤ (staking.delegation caller address).toNat) (.raised .invalidDelegation)
  let delegation ← sub (staking.delegation caller address) amount
  let total ← sub (staking.delegatedTo address) amount
  let validator := staking.validator address
  let staked ← sub validator.stake amount
  let totalDelegated ← sub validator.totalDelegated amount
  let unlockHeight ← add (now.setWidth 256) staking.unbondingPeriod
  let staking := (staking.setDelegation caller address delegation total).setValidator address
    { validator with
      stake := staked
      totalDelegated := totalDelegated
      isActive := if staked < staking.minStake then false else validator.isActive }
  return { state with
    staking := { staking with
      unbondingQueue := staking.unbondingQueue ++
        [{ delegator := caller
           validator := address
           amount := amount
           unlockHeight := unlockHeight
           processed := false }] } }

def processUnbonding (now : U64) : Outcome StakingError (State World) := do
  let (queue, world) ← processEntries env.toEnv state.staking.protonToken (now.setWidth 256)
    state.staking.unbondingQueue state.world
  return ⟨{ state.staking with unbondingQueue := queue }, world⟩

/-- The loop over validators and rewards; the total is carried along. -/
def creditRewards : List (Address × U256) → U256 → ProtonStaking →
    Outcome StakingError (U256 × ProtonStaking)
  | [], total, staking => .ok (total, staking)
  | (address, reward) :: rest, total, staking =>
    let validator := staking.validator address
    if validator.isActive then do
      let commission ← mulDiv reward validator.commission feeDenominator
      let _delegatorReward ← sub reward commission
      let staked ← add validator.stake commission
      let rewardsAccumulated ← add validator.rewardsAccumulated commission
      let total ← add total reward
      creditRewards rest total (staking.setValidator address { validator with
        stake := staked
        rewardsAccumulated := rewardsAccumulated })
    else creditRewards rest total staking

def distributeRewards (validators : List Address) (rewards : List U256) :
    Outcome StakingError (State World) := do
  ensure (caller = state.staking.owner) (.raised .ownableUnauthorizedAccount)
  ensure (validators.length = rewards.length) (.reason "Length mismatch")
  let (_, staking) ← creditRewards (validators.zip rewards) 0 state.staking
  let epoch ← add staking.epoch 1
  return { state with staking := { staking with epoch := epoch } }

/-- The reward is returned for the record. -/
def claimRewards (address : Address) : Outcome StakingError (U256 × State World) := do
  let reward ← calculateRewards state.staking caller address
  if reward = 0 then return (reward, state)
  else
    let world ← transfer env.toEnv state.staking.protonToken caller reward state.world
    return (reward, { state with world := world })

def slashValidator (address : Address) (percentage : U256) :
    Outcome StakingError (State World) := do
  let staking := state.staking
  ensure (caller = staking.owner) (.raised .ownableUnauthorizedAccount)
  ensure (address ∈ staking.isValidator) (.raised .validatorNotFound)
  ensure (percentage.toNat ≤ 10000) (.reason "Invalid percentage")
  let validator := staking.validator address
  let slashAmount ← mulDiv validator.stake percentage feeDenominator
  let staked ← sub validator.stake slashAmount
  return { state with
    staking := staking.setValidator address { validator with
      stake := staked
      isActive := false } }

/-- A parameter that the owner sets. -/
def setParameter (change : ProtonStaking → ProtonStaking) : Outcome StakingError (State World) := do
  ensure (caller = state.staking.owner) (.raised .ownableUnauthorizedAccount)
  return { state with staking := change state.staking }

def setMinStake (newMinStake : U256) : Outcome StakingError (State World) :=
  setParameter caller state fun staking => { staking with minStake := newMinStake }

def setUnbondingPeriod (newPeriod : U256) : Outcome StakingError (State World) :=
  setParameter caller state fun staking => { staking with unbondingPeriod := newPeriod }

def setZKVerifier (newVerifier : Address) : Outcome StakingError (State World) :=
  setParameter caller state fun staking => { staking with zkVerifier := newVerifier }

end Calls

/-! ## Runs -/

inductive Call where
  | registerValidator (commission : U256)
  | stake (address : Address) (amount : U256)
  | privateStake (address : Address) (encryptedAmount commitment nullifier : Hash)
    (zkProof : Bytes)
  | unstake (address : Address) (amount : U256)
  | processUnbonding
  | distributeRewards (validators : List Address) (rewards : List U256)
  | claimRewards (address : Address)
  | slashValidator (address : Address) (percentage : U256)
  | setMinStake (newMinStake : U256)
  | setUnbondingPeriod (newPeriod : U256)
  | setZKVerifier (newVerifier : Address)

/-- A call in a block of some time, or what happens outside: other calls leave a new world,
and the owner may have passed the ownership on. -/
inductive Input (World : Type) where
  | call (caller : Address) (now : U64) (call : Call)
  | outside (world : World) (owner : Address)

/-- The delegator who claims rewards, and the validator they are claimed of. -/
def Input.claim {World : Type} : Input World → Option (Address × Address)
  | .call caller _ (.claimRewards address) => some (caller, address)
  | _ => none

section Runs
variable {World : Type} (env : StakingEnv World)

def perform (state : State World) : Input World → Outcome StakingError (State World)
  | .call caller _ (.registerValidator commission) => registerValidator caller state commission
  | .call caller _ (.stake address amount) => stake env caller state address amount
  | .call caller _ (.privateStake address encryptedAmount commitment nullifier zkProof) =>
    privateStake env caller state address encryptedAmount commitment nullifier zkProof
  | .call caller now (.unstake address amount) => unstake caller state now address amount
  | .call _ now .processUnbonding => processUnbonding env state now
  | .call caller _ (.distributeRewards validators rewards) =>
    distributeRewards caller state validators rewards
  | .call caller _ (.claimRewards address) => do
    let (_, next) ← claimRewards env caller state address
    return next
  | .call caller _ (.slashValidator address percentage) =>
    slashValidator caller state address percentage
  | .call caller _ (.setMinStake newMinStake) => setMinStake caller state newMinStake
  | .call caller _ (.setUnbondingPeriod newPeriod) => setUnbondingPeriod caller state newPeriod
  | .call caller _ (.setZKVerifier newVerifier) => setZKVerifier caller state newVerifier
  | .outside world owner => .ok ⟨{ state.staking with owner := owner }, world⟩

def step : State World → Input World → Except (Fault StakingError) Unit × State World :=
  Transactions.step (perform env)

end Runs

end ProtonStaking

/-! ## A concrete staking contract -/

namespace ProtonStaking.Sample

open Solidity.Sample (Ledger erc20)

/-- The contract at address 8, with a verifier that takes every proof. -/
def env : StakingEnv Ledger where
  self := Sample.address 8
  keccak256 := Sample.sha3
  erc20 := erc20
  verifyStake _ _ _ _ _ _ := some trueWord

/-- Addresses 3 and 5 hold what they may stake; the contract holds a surplus. -/
def ledger (surplus : U256) : Ledger where
  balances := (((∅ : HashMap (Address × Address) U256).insert
    (Sample.address 1, Sample.address 3) (20000 * ether)).insert
      (Sample.address 1, Sample.address 5) (20000 * ether)).insert
        (Sample.address 1, Sample.address 8) surplus
  allowances := ((∅ : HashMap (Address × Address × Address) U256).insert
    (Sample.address 1, Sample.address 3, Sample.address 8) (20000 * ether)).insert
      (Sample.address 1, Sample.address 5, Sample.address 8) (20000 * ether)

/-- Deployed by address 9 for token 1. -/
def deployed (surplus : U256) : State Ledger :=
  ⟨ProtonStaking.new (Sample.address 9) (Sample.address 1) (Sample.address 7), ledger surplus⟩

def call (caller : UInt8) (call : Call) : Input Ledger := .call (Sample.address caller) 0 call

/-- Address 4 registers and address 3 stakes the minimum on it. -/
def opening : List (Input Ledger) :=
  [call 4 (.registerValidator 500), call 3 (.stake (Sample.address 4) (10000 * ether))]

end ProtonStaking.Sample

end ProtonChain.Solidity
