import ProtonChain.Library.Shares
import ProtonChain.Solidity.StakingCalls

/-! The staking contract seen from a single validator.

A position is what the contract keeps of one validator, as plain numbers. Every call that
goes through moves each position in one of a few ways, and the invariants are of positions.
-/

set_option autoImplicit false

namespace ProtonChain.Solidity.ProtonStaking

open Checked

/-! ## Positions -/

@[ext] structure Position where
  delegations : Address → Nat
  delegatedTo : Nat
  stake : Nat
  totalDelegated : Nat
  rewards : Nat

namespace Position

section Moves
variable (position : Position) (delegator : Address) (amount : Nat)

def staked : Position where
  delegations :=
    Function.update position.delegations delegator (position.delegations delegator + amount)
  delegatedTo := position.delegatedTo + amount
  stake := position.stake + amount
  totalDelegated := position.totalDelegated + amount
  rewards := position.rewards

def unstaked : Position where
  delegations :=
    Function.update position.delegations delegator (position.delegations delegator - amount)
  delegatedTo := position.delegatedTo - amount
  stake := position.stake - amount
  totalDelegated := position.totalDelegated - amount
  rewards := position.rewards

/-- A private stake counts as one, whatever its amount. -/
def privatelyStaked : Position :=
  { position with totalDelegated := position.totalDelegated + 1 }

def rewarded (commission : Nat) : Position :=
  { position with
    stake := position.stake + commission
    rewards := position.rewards + commission }

/-- The delegations are not slashed. -/
def slashed (percentage : Nat) : Position :=
  { position with stake := position.stake - position.stake * percentage / 10000 }

def reward : Nat :=
  Shares.portion (10 ^ 18) (position.delegations delegator) position.totalDelegated
    position.rewards

end Moves

/-- No delegators together own more than is recorded as delegated. -/
structure Sound (position : Position) : Prop where
  delegated : ∀ delegators, ∑ delegator ∈ delegators, position.delegations delegator ≤
    position.delegatedTo
  counted : position.delegatedTo ≤ position.totalDelegated

theorem Sound.delegation_le {position : Position} (sound : position.Sound) (delegator : Address) :
    position.delegations delegator ≤ position.delegatedTo :=
  Shares.le_of_bounded position.delegations sound.delegated delegator

end Position

def position (staking : ProtonStaking) (address : Address) : Position where
  delegations delegator := (staking.delegation delegator address).toNat
  delegatedTo := (staking.delegatedTo address).toNat
  stake := (staking.validator address).stake.toNat
  totalDelegated := (staking.validator address).totalDelegated.toNat
  rewards := (staking.validator address).rewardsAccumulated.toNat

theorem reward_position (staking : ProtonStaking) (delegator address : Address) :
    (staking.position address).reward delegator = staking.rewardOf delegator address := rfl

theorem position_setValidator (staking : ProtonStaking) (target : Address) (record : Validator)
    (address : Address) :
    (staking.setValidator target record).position address =
      if address = target then { staking.position address with
        stake := record.stake.toNat
        totalDelegated := record.totalDelegated.toNat
        rewards := record.rewardsAccumulated.toNat }
      else staking.position address := by
  simp only [position, validator_setValidator, delegation_setValidator, delegatedTo_setValidator]
  split <;> rfl

theorem position_setDelegation (staking : ProtonStaking) (delegator target : Address)
    (amount total : U256) (address : Address) :
    (staking.setDelegation delegator target amount total).position address =
      if address = target then { staking.position address with
        delegations := Function.update (staking.position address).delegations delegator amount.toNat
        delegatedTo := total.toNat }
      else staking.position address := by
  simp only [position, validator_setDelegation, delegation_setDelegation,
    delegatedTo_setDelegation]
  split
  next same =>
    apply Position.ext
    · funext other
      simp only [Function.update_apply, same, and_true]
      split <;> rfl
    all_goals rfl
  next apart => simp [apart]

/-! ## Effects -/

section Effects
variable {World : Type}

/-- The validator whose position a call moves. Rewards go to several. -/
def Input.target : Input World → Option Address
  | .call _ _ (.stake address _) => some address
  | .call _ _ (.privateStake address _ _ _ _) => some address
  | .call _ _ (.unstake address _) => some address
  | .call _ _ (.slashValidator address _) => some address
  | _ => none

/-- What an input that goes through does to the position of a validator. -/
inductive Effect (address : Address) (before : Position) : Input World → Position → Prop
  | untouched (input : Input World) (apart : input.target ≠ some address) :
    Effect address before input before
  | staked (caller : Address) (now : U64) (amount : U256) :
    Effect address before (.call caller now (.stake address amount))
      (before.staked caller amount.toNat)
  | privatelyStaked (caller : Address) (now : U64) (encryptedAmount commitment nullifier : Hash)
    (zkProof : Bytes) :
    Effect address before
      (.call caller now (.privateStake address encryptedAmount commitment nullifier zkProof))
      before.privatelyStaked
  | unstaked (caller : Address) (now : U64) (amount : U256)
    (owned : amount.toNat ≤ before.delegations caller) :
    Effect address before (.call caller now (.unstake address amount))
      (before.unstaked caller amount.toNat)
  | rewarded (caller : Address) (now : U64) (validators : List Address) (rewards : List U256)
    (commission : Nat) :
    Effect address before (.call caller now (.distributeRewards validators rewards))
      (before.rewarded commission)
  | slashed (caller : Address) (now : U64) (percentage : U256) :
    Effect address before (.call caller now (.slashValidator address percentage))
      (before.slashed percentage.toNat)

theorem Effect.elsewhere {address : Address} {before : Position} {input : Input World}
    (none : input.target = none) : Effect address before input before :=
  .untouched input (by simp [none])

theorem Effect.sound {address : Address} {before after : Position} {input : Input World}
    (effect : Effect address before input after) (sound : before.Sound) : after.Sound := by
  have delegated := sound.delegated
  have counted := sound.counted
  cases effect with
  | untouched _ apart => exact sound
  | staked caller now amount =>
    exact ⟨Shares.sum_update_add_le _ delegated caller _, Nat.add_le_add_right counted _⟩
  | privatelyStaked => exact ⟨delegated, Nat.le_succ_of_le counted⟩
  | unstaked caller now amount owned =>
    exact ⟨Shares.sum_update_sub_le _ delegated caller owned, Nat.sub_le_sub_right counted _⟩
  | rewarded => exact ⟨delegated, counted⟩
  | slashed => exact ⟨delegated, counted⟩

theorem Effect.rewards_le {address : Address} {before after : Position} {input : Input World}
    (effect : Effect address before input after) : before.rewards ≤ after.rewards := by
  cases effect with
  | rewarded => exact Nat.le_add_right _ _
  | _ => exact Nat.le_refl _

/-! ## The contract moves positions -/

/-- Nothing is recorded of an address that is not registered. -/
def Blank (staking : ProtonStaking) : Prop :=
  ∀ address, address ∉ staking.isValidator → staking.validator address = Validator.empty

variable {env : StakingEnv World} {state next : State World} {input : Input World}

theorem Blank.setValidator {staking : ProtonStaking} (blank : Blank staking) {target : Address}
    (present : target ∈ staking.isValidator) (record : Validator) :
    Blank (staking.setValidator target record) := by
  intro address absent
  rw [validator_setValidator, if_neg]
  · exact blank address absent
  · rintro rfl
    exact absent present

theorem perform_blank (blank : Blank state.staking)
    (performed : perform env state input = .ok next) : Blank next.staking := by
  cases input with
  | outside world owner =>
    obtain rfl := Except.ok.inj performed
    exact blank
  | call caller now call =>
    cases call with
    | registerValidator commission =>
      obtain ⟨-, record, -, -, -, -, rfl⟩ := registerValidator_ok performed
      intro address absent
      -- the caller is registered from here on
      obtain ⟨apart, absent⟩ := not_or.mp fun either => absent (Finset.mem_insert.mpr either)
      change (state.staking.setValidator caller record).validator address = _
      rw [validator_setValidator, if_neg apart]
      exact blank address absent
    | stake target amount =>
      obtain ⟨present, -, delegation, total, record, -, -, -, -, -, -, books⟩ := stake_ok performed
      rw [books]
      exact blank.setValidator present record
    | privateStake target encryptedAmount commitment nullifier zkProof =>
      obtain ⟨present, -, record, nullifiers, encrypted, -, -, -, -, books⟩ :=
        privateStake_ok performed
      rw [books]
      exact blank.setValidator present record
    | unstake target amount =>
      obtain ⟨present, -, delegation, total, record, unlockHeight, -, -, -, -, -, -, -, books⟩ :=
        unstake_ok performed
      rw [books]
      exact blank.setValidator present record
    | distributeRewards validators rewards =>
      obtain ⟨-, ⟨records, epoch, books⟩, credited⟩ := distributeRewards_ok performed
      intro address absent
      obtain ⟨commission, credited⟩ := credited address
      rw [books] at absent
      have empty := blank address absent
      -- an empty record is inactive, and only active ones are credited
      rw [credited.inactive (by rw [empty]; rfl), empty]
    | slashValidator target percentage =>
      obtain ⟨present, -, record, -, -, -, -, books⟩ := slashValidator_ok performed
      rw [books]
      exact blank.setValidator present record
    | _ =>
      obtain ⟨owner, queue, zkVerifier, -, books⟩ := perform_aside rfl performed
      rw [books]
      exact blank

/-- An input with a target leaves the other positions alone. -/
theorem Effect.of_target {address target : Address} {before after : Position}
    {input : Input World} (aims : input.target = some target)
    (own : address = target → Effect address before input after)
    (other : address ≠ target → after = before) : Effect address before input after := by
  by_cases same : address = target
  · exact own same
  · rw [other same]
    apply Effect.untouched
    rw [aims]
    exact fun equal => same (Option.some.inj equal).symm

section Calls
variable {caller target : Address} {now : U64} {amount : U256} (address : Address)

theorem registerValidator_effect (blank : Blank state.staking) {commission : U256}
    (done : registerValidator caller state commission = .ok next) :
    Effect address (state.staking.position address)
      (.call caller now (.registerValidator commission) : Input World)
      (next.staking.position address) := by
  obtain ⟨absent, record, stake, totalDelegated, rewards, -, rfl⟩ := registerValidator_ok done
  have same : (state.staking.setValidator caller record).position address =
      state.staking.position address := by
    rw [position_setValidator]
    split
    next own =>
      -- what is written is what an absent record reads as
      subst own
      simp only [position, blank address absent, stake, totalDelegated, rewards]
      rfl
    · rfl
  change Effect _ _ _ ((state.staking.setValidator caller record).position address)
  rw [same]
  exact .elsewhere rfl

theorem stake_effect (done : stake env caller state target amount = .ok next) :
    Effect address (state.staking.position address)
      (.call caller now (.stake target amount) : Input World) (next.staking.position address) := by
  obtain ⟨-, -, delegation, total, record, first, second, third, fourth, fifth, -, books⟩ :=
    stake_ok done
  rw [books, position_setValidator, position_setDelegation]
  apply Effect.of_target rfl
  · rintro rfl
    rw [if_pos rfl, if_pos rfl, first, second, third, fourth, fifth]
    exact .staked caller now amount
  · intro other
    rw [if_neg other, if_neg other]

theorem privateStake_effect {encryptedAmount commitment nullifier : Hash} {zkProof : Bytes}
    (done : privateStake env caller state target encryptedAmount commitment nullifier zkProof =
      .ok next) :
    Effect address (state.staking.position address)
      (.call caller now
        (.privateStake target encryptedAmount commitment nullifier zkProof) : Input World)
      (next.staking.position address) := by
  obtain ⟨-, -, record, nullifiers, encrypted, first, second, third, -, books⟩ :=
    privateStake_ok done
  rw [books]
  change Effect _ _ _ ((state.staking.setValidator target record).position address)
  rw [position_setValidator]
  apply Effect.of_target rfl
  · rintro rfl
    rw [if_pos rfl, first, second, third]
    exact .privatelyStaked caller now encryptedAmount commitment nullifier zkProof
  · intro other
    rw [if_neg other]

theorem unstake_effect (done : unstake caller state now target amount = .ok next) :
    Effect address (state.staking.position address)
      (.call caller now (.unstake target amount) : Input World)
      (next.staking.position address) := by
  obtain ⟨-, -, delegation, total, record, unlockHeight, first, second, third, fourth, fifth, -, -,
    books⟩ := unstake_ok done
  rw [books]
  change Effect _ _ _ (((state.staking.setDelegation caller target delegation
    total).setValidator target record).position address)
  rw [position_setValidator, position_setDelegation]
  apply Effect.of_target rfl
  · rintro rfl
    rw [if_pos rfl, if_pos rfl, Nat.eq_sub_of_add_eq first, Nat.eq_sub_of_add_eq second,
      Nat.eq_sub_of_add_eq third, Nat.eq_sub_of_add_eq fourth, fifth]
    exact .unstaked caller now amount ((Nat.le_add_left _ _).trans_eq first)
  · intro other
    rw [if_neg other, if_neg other]

theorem distributeRewards_effect {validators : List Address} {rewards : List U256}
    (done : distributeRewards caller state validators rewards = .ok next) :
    Effect address (state.staking.position address)
      (.call caller now (.distributeRewards validators rewards) : Input World)
      (next.staking.position address) := by
  obtain ⟨-, ⟨records, epoch, books⟩, credited⟩ := distributeRewards_ok done
  -- the list may name the validator several times; the commissions add up
  obtain ⟨commission, credited⟩ := credited address
  have moved : next.staking.position address =
      (state.staking.position address).rewarded commission := by
    apply Position.ext
    · rw [books]
      rfl
    · rw [books]
      rfl
    · exact credited.stake
    · exact congrArg BitVec.toNat credited.totalDelegated
    · exact credited.rewards
  rw [moved]
  exact .rewarded caller now validators rewards commission

theorem slashValidator_effect {percentage : U256}
    (done : slashValidator caller state target percentage = .ok next) :
    Effect address (state.staking.position address)
      (.call caller now (.slashValidator target percentage) : Input World)
      (next.staking.position address) := by
  obtain ⟨-, -, record, first, second, third, -, books⟩ := slashValidator_ok done
  rw [books, position_setValidator]
  apply Effect.of_target rfl
  · rintro rfl
    rw [if_pos rfl, first, second, third]
    exact .slashed caller now percentage
  · intro other
    rw [if_neg other]

end Calls

theorem perform_effect (blank : Blank state.staking)
    (performed : perform env state input = .ok next) (address : Address) :
    Effect address (state.staking.position address) input (next.staking.position address) := by
  cases input with
  | outside world owner =>
    obtain rfl := Except.ok.inj performed
    exact .elsewhere rfl
  | call caller now call =>
    cases call with
    | registerValidator commission => exact registerValidator_effect address blank performed
    | stake target amount => exact stake_effect address performed
    | privateStake target encryptedAmount commitment nullifier zkProof =>
      exact privateStake_effect address performed
    | unstake target amount => exact unstake_effect address performed
    | distributeRewards validators rewards => exact distributeRewards_effect address performed
    | slashValidator target percentage => exact slashValidator_effect address performed
    | _ =>
      obtain ⟨owner, queue, zkVerifier, -, books⟩ := perform_aside rfl performed
      rw [books]
      exact .elsewhere rfl

/-! ## The books of every run -/

structure Books (staking : ProtonStaking) : Prop where
  blank : Blank staking
  sound : ∀ address, (staking.position address).Sound

theorem books_new (deployer protonToken zkVerifier : Address) :
    Books (ProtonStaking.new deployer protonToken zkVerifier) where
  blank _ _ := rfl
  sound _ := ⟨fun delegators => (Finset.sum_const_zero (s := delegators)).le, Nat.le_refl 0⟩

theorem perform_books (books : Books state.staking)
    (performed : perform env state input = .ok next) : Books next.staking where
  blank := perform_blank books.blank performed
  sound address := (perform_effect books.blank performed address).sound (books.sound address)

theorem Books.delegations_of_absent {staking : ProtonStaking} (books : Books staking)
    {address : Address} (absent : address ∉ staking.isValidator) (delegator : Address) :
    (staking.position address).delegations delegator = 0 := by
  have sound := books.sound address
  have counted := sound.counted
  have owned := sound.delegation_le delegator
  have none : (staking.position address).totalDelegated = 0 := by
    rw [position, books.blank address absent]
    rfl
  omega

end Effects

end ProtonChain.Solidity.ProtonStaking
