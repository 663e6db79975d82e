import ProtonChain.Library.Checked
import ProtonChain.Library.FiniteMap
import ProtonChain.Library.Transactions
import ProtonChain.Types

/-! The staking contract of the chain itself.

The host moves the tokens and answers who calls and at which height. Arithmetic that
overflows ends the call, and a call that ends so is rolled back.
-/

set_option autoImplicit false

namespace ProtonChain.Contracts

open Checked

structure ValidatorInfo where
  owner : Address
  stake : U128
  commission : U16
  isActive : Bool
  totalDelegated : U128
  uptime : U64
  blocksProposed : U64
  encryptedRewards : Bytes
  deriving DecidableEq

structure UnbondingEntry where
  delegator : Address
  validator : Address
  amount : U128
  unlockHeight : U64
  deriving DecidableEq

structure ProtonStaking where
  validators : HashMap Address ValidatorInfo
  delegations : HashMap (Address × Address) U128
  totalStaked : U128
  minStake : U128
  commissionBase : U16
  epoch : U64
  unbondingPeriod : U64
  unbondingQueue : List UnbondingEntry
  encryptedDelegations : HashMap Hash Bytes

inductive StakingPanic where
  | unwrapNone
  | removeIndex
  | transferFrom
  | transfer
  deriving DecidableEq, Repr

structure StakingHost (World : Type) where
  selfAddress : Address
  protonToken : Address
  transferFrom : World → Address → Address → Address → U128 → Option World
  transfer : World → Address → Address → U128 → Option World
  verifyStakeProof : World → Bytes → Address → Hash → Hash → Bool
  isProtocolAddress : World → Address → Bool

namespace ProtonStaking

def new (minStake : U128) (commissionBase : U16) (unbondingPeriod : U64) : ProtonStaking where
  validators := ∅
  delegations := ∅
  totalStaked := 0
  minStake := minStake
  commissionBase := commissionBase
  epoch := 0
  unbondingPeriod := unbondingPeriod
  unbondingQueue := []
  encryptedDelegations := ∅

def getDelegation (staking : ProtonStaking) (delegator validator : Address) : U128 :=
  (staking.delegations.lookup (delegator, validator)).getD 0

/-- The order is the one in which the iterator of the map meets the validators. -/
def getValidatorSet (order : List (Address × ValidatorInfo)) (count : U64) :
    List (Address × U128) :=
  let validators := (order.filter fun (_, info) => info.isActive).map fun (addr, info) =>
    (addr, info.stake)
  (validators.mergeSort fun a b => decide (b.2 ≤ a.2)).take count.toNat

/-! ## Calls -/

section Books
variable (caller : Address) (staking : ProtonStaking)

def registerValidator (commission : U16) : Outcome StakingPanic ProtonStaking := do
  ensure (commission.toNat ≤ 10000) (.reason "Commission must be <= 100%")
  ensure (caller ∉ staking.validators) (.reason "Already registered")
  let info : ValidatorInfo :=
    { owner := caller
      stake := 0
      commission := if commission < staking.commissionBase then staking.commissionBase
        else commission
      isActive := false
      totalDelegated := 0
      uptime := 0
      blocksProposed := 0
      encryptedRewards := [] }
  return { staking with validators := staking.validators.insert caller info }

/-- The books of a public stake, once the tokens have moved. -/
def recordStake (validator : Address) (validatorInfo : ValidatorInfo) (amount : U128) :
    Outcome StakingPanic ProtonStaking := do
  let delegation ← add (staking.getDelegation caller validator) amount
  let stake ← add validatorInfo.stake amount
  let totalDelegated ← add validatorInfo.totalDelegated amount
  let validatorInfo := { validatorInfo with
    stake := stake
    totalDelegated := totalDelegated
    isActive := if staking.minStake ≤ stake then true else validatorInfo.isActive }
  let totalStaked ← add staking.totalStaked amount
  return { staking with
    delegations := staking.delegations.insert (caller, validator) delegation
    validators := staking.validators.insert validator validatorInfo
    totalStaked := totalStaked }

/-- What is withdrawn as a whole is removed, not stored as zero. -/
def withdraw (validator : Address) (amount : U128) :
    Outcome StakingPanic (HashMap (Address × Address) U128) :=
  let current := staking.getDelegation caller validator
  if current = amount then .ok (staking.delegations.erase (caller, validator))
  else do
    let rest ← sub current amount
    return staking.delegations.insert (caller, validator) rest

def unstake (height : U64) (validator : Address) (amount : U128) :
    Outcome StakingPanic ProtonStaking := do
  ensure (amount.toNat ≤ (staking.getDelegation caller validator).toNat)
    (.reason "Insufficient stake")
  let delegations ← withdraw caller staking validator amount
  let validatorInfo ← demand (.raised .unwrapNone) (staking.validators.lookup validator)
  let stake ← sub validatorInfo.stake amount
  let totalDelegated ← sub validatorInfo.totalDelegated amount
  let validatorInfo := { validatorInfo with
    stake := stake
    totalDelegated := totalDelegated
    isActive := if stake < staking.minStake then false else validatorInfo.isActive }
  let totalStaked ← sub staking.totalStaked amount
  let unlockHeight ← add height staking.unbondingPeriod
  return { staking with
    delegations := delegations
    validators := staking.validators.insert validator validatorInfo
    totalStaked := totalStaked
    unbondingQueue := staking.unbondingQueue ++ [⟨caller, validator, amount, unlockHeight⟩] }

/-- The loop over the rewards, in the order of the iterator; the total is carried along. -/
def creditRewards :
    List (Address × U128) → U128 → ProtonStaking → Outcome StakingPanic (U128 × ProtonStaking)
  | [], total, staking => .ok (total, staking)
  | (validator, reward) :: rest, total, staking =>
    match staking.validators.lookup validator with
    | some info => do
      let commission ← mulDiv reward (info.commission.setWidth 128) 10000
      let _delegatorReward ← sub reward commission
      let stake ← add info.stake commission
      let total ← add total reward
      creditRewards rest total { staking with
        validators := staking.validators.insert validator { info with stake := stake } }
    | none => creditRewards rest total staking

end Books

structure State (World : Type) where
  staking : ProtonStaking
  world : World

section Host
variable {World : Type} (host : StakingHost World) (caller : Address) (state : State World)

def stake (validator : Address) (amount : U128) : Outcome StakingPanic (State World) := do
  ensure (state.staking.minStake.toNat ≤ amount.toNat) (.reason "Amount below minimum stake")
  let validatorInfo ← demand (.reason "Validator not found")
    (state.staking.validators.lookup validator)
  let world ← demand (.raised .transferFrom)
    (host.transferFrom state.world host.protonToken caller host.selfAddress amount)
  let staking ← recordStake caller state.staking validator validatorInfo amount
  return ⟨staking, world⟩

def privateStake (validator : Address) (encryptedAmount zkProof : Bytes)
    (commitment nullifier : Hash) : Outcome StakingPanic (State World) := do
  ensure (host.verifyStakeProof state.world zkProof validator commitment nullifier)
    (.reason "Invalid stake proof")
  let validatorInfo ← demand (.reason "Validator not found")
    (state.staking.validators.lookup validator)
  return { state with
    staking := { state.staking with
      encryptedDelegations := state.staking.encryptedDelegations.insert commitment encryptedAmount
      validators := state.staking.validators.insert validator
        { validatorInfo with isActive := true } } }

/-- The scan of the queue: what is unlocked is paid, and its index noted. -/
def payUnlocked (height : U64) :
    List (UnbondingEntry × Nat) → World → Outcome StakingPanic (List Nat × World)
  | [], world => .ok ([], world)
  | (entry, index) :: rest, world =>
    if entry.unlockHeight.toNat ≤ height.toNat then do
      let world ← demand (.raised .transfer)
        (host.transfer world host.protonToken entry.delegator entry.amount)
      let (toRemove, world) ← payUnlocked height rest world
      return (index :: toRemove, world)
    else payUnlocked height rest world

/-- `Vec::remove` at each index in turn; it panics behind the end. -/
def removeEach : List Nat → List UnbondingEntry → Outcome StakingPanic (List UnbondingEntry)
  | [], queue => .ok queue
  | index :: rest, queue =>
    if index < queue.length then removeEach rest (queue.eraseIdx index)
    else .error (.raised .removeIndex)

def processUnbonding (height : U64) : Outcome StakingPanic (State World) := do
  let (toRemove, world) ← payUnlocked host height state.staking.unbondingQueue.zipIdx state.world
  let queue ← removeEach toRemove.reverse state.staking.unbondingQueue
  return ⟨{ state.staking with unbondingQueue := queue }, world⟩

/-- The rewards are the entries of the map in the order of its iterator. -/
def distributeRewards (rewards : List (Address × U128)) : Outcome StakingPanic (State World) := do
  ensure (host.isProtocolAddress state.world caller) (.reason "Only protocol can distribute")
  let (_, staking) ← creditRewards rewards 0 state.staking
  let epoch ← add staking.epoch 1
  return { state with staking := { staking with epoch := epoch } }

end Host

/-! ## Runs -/

inductive Call where
  | registerValidator (commission : U16)
  | stake (validator : Address) (amount : U128)
  | privateStake (validator : Address) (encryptedAmount zkProof : Bytes)
    (commitment nullifier : Hash)
  | unstake (validator : Address) (amount : U128)
  | processUnbonding
  | distributeRewards (rewards : List (Address × U128))

inductive Input (World : Type) where
  | call (caller : Address) (height : U64) (call : Call)
  | outside (world : World)

def perform {World : Type} (host : StakingHost World) (state : State World) :
    Input World → Outcome StakingPanic (State World)
  | .call caller _ (.registerValidator commission) => do
    let staking ← registerValidator caller state.staking commission
    return { state with staking := staking }
  | .call caller _ (.stake validator amount) => stake host caller state validator amount
  | .call _ _ (.privateStake validator encryptedAmount zkProof commitment nullifier) =>
    privateStake host state validator encryptedAmount zkProof commitment nullifier
  | .call caller height (.unstake validator amount) => do
    let staking ← unstake caller state.staking height validator amount
    return { state with staking := staking }
  | .call _ height .processUnbonding => processUnbonding host state height
  | .call caller _ (.distributeRewards rewards) => distributeRewards host caller state rewards
  | .outside world => .ok { state with world := world }

def step {World : Type} (host : StakingHost World) : State World → Input World →
    Except (Fault StakingPanic) Unit × State World :=
  Transactions.step (perform host)

end ProtonStaking

namespace Sample

/-- A host whose transfers always go through and that accepts every proof. -/
def stakingHost : StakingHost Unit where
  selfAddress := Sample.address 8
  protonToken := Sample.address 1
  transferFrom _ _ _ _ _ := some ()
  transfer _ _ _ _ := some ()
  verifyStakeProof _ _ _ _ _ := true
  isProtocolAddress _ _ := true

end Sample

end ProtonChain.Contracts
