import ProtonChain.Solidity.Staking

/-! What the calls of the staking contract do where they go through. -/

set_option autoImplicit false

namespace ProtonChain.Solidity.ProtonStaking

open Checked

section Calls
variable {World : Type}

@[simp] theorem transferFrom_eq_ok {env : Env World} {token owner : Address} {amount : U256}
    {world next : World} :
    transferFrom env token owner amount world = .ok next ↔
      env.erc20.transferFrom world token env.self owner env.self amount = some next := by
  rw [transferFrom]
  split <;> simp [*]

@[simp] theorem transfer_eq_ok {env : Env World} {token recipient : Address} {amount : U256}
    {world next : World} :
    transfer env token recipient amount world = .ok next ↔
      env.erc20.transfer world token env.self recipient amount = some next := by
  rw [transfer]
  split <;> simp [*]

variable {env : StakingEnv World} {caller : Address} {state next : State World}

theorem registerValidator_ok {commission : U256}
    (done : registerValidator caller state commission = .ok next) :
    caller ∉ state.staking.isValidator ∧ ∃ record : Validator,
      record.stake = 0 ∧ record.totalDelegated = 0 ∧ record.rewardsAccumulated = 0 ∧
        record.isActive = false ∧
        next = { state with
          staking := { state.staking.setValidator caller record with
            isValidator := insert caller state.staking.isValidator
            validatorList := state.staking.validatorList ++ [caller] } } := by
  simp only [registerValidator, bind_eq_ok, ensure_eq_ok, pure_eq_ok] at done
  obtain ⟨-, -, -, absent, rfl⟩ := done
  exact ⟨absent, _, rfl, rfl, rfl, rfl, rfl⟩

theorem stake_ok {address : Address} {amount : U256}
    (done : stake env caller state address amount = .ok next) :
    address ∈ state.staking.isValidator ∧
      env.erc20.transferFrom state.world state.staking.protonToken env.self caller env.self
        amount = some next.world ∧
      ∃ delegation total record,
        delegation.toNat = (state.staking.delegation caller address).toNat + amount.toNat ∧
        total.toNat = (state.staking.delegatedTo address).toNat + amount.toNat ∧
        record.stake.toNat = (state.staking.validator address).stake.toNat + amount.toNat ∧
        record.totalDelegated.toNat =
          (state.staking.validator address).totalDelegated.toNat + amount.toNat ∧
        record.rewardsAccumulated = (state.staking.validator address).rewardsAccumulated ∧
        record.isActive = (if state.staking.minStake ≤ record.stake then true
          else (state.staking.validator address).isActive) ∧
        next.staking = (state.staking.setDelegation caller address delegation total).setValidator
          address record := by
  simp only [stake, bind_eq_ok, ensure_eq_ok, transferFrom_eq_ok, add_eq_ok, pure_eq_ok] at done
  obtain ⟨-, present, -, -, world, paid, delegation, first, total, second, staked, third,
    totalDelegated, fourth, rfl⟩ := done
  let record : Validator := { state.staking.validator address with
    stake := staked
    totalDelegated := totalDelegated
    isActive := if state.staking.minStake ≤ staked then true
      else (state.staking.validator address).isActive }
  exact ⟨present, paid, delegation, total, record, first, second, third, fourth, rfl, rfl, rfl⟩

theorem privateStake_ok {address : Address} {encryptedAmount commitment nullifier : Hash}
    {zkProof : Bytes}
    (done : privateStake env caller state address encryptedAmount commitment nullifier zkProof =
      .ok next) :
    address ∈ state.staking.isValidator ∧ next.world = state.world ∧
      ∃ record nullifiers encrypted,
        record.stake = (state.staking.validator address).stake ∧
        record.totalDelegated.toNat =
          (state.staking.validator address).totalDelegated.toNat + 1 ∧
        record.rewardsAccumulated = (state.staking.validator address).rewardsAccumulated ∧
        record.isActive = true ∧
        next.staking = { state.staking.setValidator address record with
          privateDelegationNullifiers := nullifiers
          encryptedDelegations := encrypted } := by
  simp only [privateStake, bind_eq_ok, ensure_eq_ok, add_eq_ok, pure_eq_ok] at done
  obtain ⟨-, present, -, -, -, -, -, -, totalDelegated, counted, rfl⟩ := done
  let record : Validator := { state.staking.validator address with
    isActive := true
    totalDelegated := totalDelegated }
  exact ⟨present, rfl, record, _, _, rfl, counted, rfl, rfl, rfl⟩

structure Unstakes (staking : ProtonStaking) (delegator : Address) (now : U64)
    (address : Address) (amount : U256) : Prop where
  present : address ∈ staking.isValidator
  owned : amount.toNat ≤ (staking.delegation delegator address).toNat
  total : amount.toNat ≤ (staking.delegatedTo address).toNat
  staked : amount.toNat ≤ (staking.validator address).stake.toNat
  totalDelegated : amount.toNat ≤ (staking.validator address).totalDelegated.toNat
  unlocks : now.toNat + staking.unbondingPeriod.toNat < 2 ^ 256

theorem toNat_timestamp (now : U64) : (now.setWidth 256).toNat = now.toNat :=
  BitVec.toNat_setWidth_of_le (by decide)

theorem unstake_succeeds_iff {now : U64} {address : Address} {amount : U256} :
    (∃ next, unstake caller state now address amount = .ok next) ↔
      Unstakes state.staking caller now address amount := by
  simp only [unstake, bind_eq_ok, ensure_eq_ok, sub_eq_ok_iff_le, add_eq_ok_iff_fits, pure_eq_ok,
    toNat_timestamp]
  constructor
  · rintro ⟨-, -, present, -, owned, _, ⟨-, rfl⟩, _, ⟨total, rfl⟩, _, ⟨staked, rfl⟩, _,
      ⟨totalDelegated, rfl⟩, _, ⟨unlocks, rfl⟩, rfl⟩
    exact ⟨present, owned, total, staked, totalDelegated, unlocks⟩
  · intro can
    exact ⟨_, (), can.present, (), can.owned, _, ⟨can.owned, rfl⟩, _, ⟨can.total, rfl⟩, _,
      ⟨can.staked, rfl⟩, _, ⟨can.totalDelegated, rfl⟩, _, ⟨can.unlocks, rfl⟩, rfl⟩

theorem unstake_ok {now : U64} {address : Address} {amount : U256}
    (done : unstake caller state now address amount = .ok next) :
    address ∈ state.staking.isValidator ∧ next.world = state.world ∧
      ∃ delegation total record unlockHeight,
        delegation.toNat + amount.toNat = (state.staking.delegation caller address).toNat ∧
        total.toNat + amount.toNat = (state.staking.delegatedTo address).toNat ∧
        record.stake.toNat + amount.toNat = (state.staking.validator address).stake.toNat ∧
        record.totalDelegated.toNat + amount.toNat =
          (state.staking.validator address).totalDelegated.toNat ∧
        record.rewardsAccumulated = (state.staking.validator address).rewardsAccumulated ∧
        record.isActive = (if record.stake < state.staking.minStake then false
          else (state.staking.validator address).isActive) ∧
        unlockHeight.toNat = now.toNat + state.staking.unbondingPeriod.toNat ∧
        next.staking =
          { (state.staking.setDelegation caller address delegation total).setValidator address
              record with
            unbondingQueue := state.staking.unbondingQueue ++
              [⟨caller, address, amount, unlockHeight, false⟩] } := by
  simp only [unstake, bind_eq_ok, ensure_eq_ok, sub_eq_ok, add_eq_ok, toNat_timestamp,
    pure_eq_ok] at done
  obtain ⟨-, present, -, -, delegation, first, total, second, staked, third, totalDelegated,
    fourth, unlockHeight, unlocks, rfl⟩ := done
  let record : Validator := { state.staking.validator address with
    stake := staked
    totalDelegated := totalDelegated
    isActive := if staked < state.staking.minStake then false
      else (state.staking.validator address).isActive }
  exact ⟨present, rfl, delegation, total, record, unlockHeight, first, second, third, fourth,
    rfl, rfl, unlocks, rfl⟩

theorem processUnbonding_ok {now : U64} (done : processUnbonding env state now = .ok next) :
    ∃ queue, processEntries env.toEnv state.staking.protonToken (now.setWidth 256)
        state.staking.unbondingQueue state.world = .ok (queue, next.world) ∧
      next.staking = { state.staking with unbondingQueue := queue } := by
  simp only [processUnbonding, bind_eq_ok, pure_eq_ok] at done
  obtain ⟨⟨queue, world⟩, processed, rfl⟩ := done
  exact ⟨queue, processed, rfl⟩

/-- What a distribution does to the record of a validator. -/
structure Credited (before after : Validator) (commission : Nat) : Prop where
  stake : after.stake.toNat = before.stake.toNat + commission
  rewards : after.rewardsAccumulated.toNat = before.rewardsAccumulated.toNat + commission
  totalDelegated : after.totalDelegated = before.totalDelegated
  active : after.isActive = before.isActive
  inactive : before.isActive = false → after = before

theorem Credited.refl (validator : Validator) : Credited validator validator 0 :=
  ⟨rfl, rfl, rfl, rfl, fun _ => rfl⟩

theorem Credited.trans {first second third : Validator} {commission commission' : Nat}
    (one : Credited first second commission) (two : Credited second third commission') :
    Credited first third (commission + commission') where
  stake := by rw [two.stake, one.stake, Nat.add_assoc]
  rewards := by rw [two.rewards, one.rewards, Nat.add_assoc]
  totalDelegated := two.totalDelegated.trans one.totalDelegated
  active := two.active.trans one.active
  inactive off := (two.inactive (one.active.trans off)).trans (one.inactive off)

theorem creditRewards_ok {credits : List (Address × U256)} {total total' : U256}
    {staking staking' : ProtonStaking}
    (done : creditRewards credits total staking = .ok (total', staking')) :
    (∃ validators, staking' = { staking with validators := validators }) ∧
      ∀ address, ∃ commission,
        Credited (staking.validator address) (staking'.validator address) commission := by
  induction credits generalizing total staking with
  | nil =>
    obtain ⟨rfl, rfl⟩ := Prod.mk.inj (Except.ok.inj done)
    exact ⟨⟨_, rfl⟩, fun address => ⟨0, Credited.refl _⟩⟩
  | cons credit rest ih =>
    obtain ⟨owner, reward⟩ := credit
    rw [creditRewards] at done
    split at done
    next active =>
      simp only [bind_eq_ok, add_eq_ok] at done
      obtain ⟨commission, -, -, -, staked, first, rewards, second, _, -, done⟩ := done
      obtain ⟨⟨validators, same⟩, credited⟩ := ih done
      refine ⟨⟨validators, same⟩, fun address => ?_⟩
      obtain ⟨later, credited⟩ := credited address
      rw [validator_setValidator] at credited
      split at credited
      next own =>
        -- the same validator may be named again later in the list
        subst own
        let record : Validator := { staking.validator address with
          stake := staked
          rewardsAccumulated := rewards }
        have now : Credited (staking.validator address) record commission.toNat :=
          ⟨first, second, rfl, rfl, fun off => absurd active (by simp [off])⟩
        exact ⟨commission.toNat + later, now.trans credited⟩
      · exact ⟨later, credited⟩
    · exact ih done

theorem distributeRewards_ok {validators : List Address} {rewards : List U256}
    (done : distributeRewards caller state validators rewards = .ok next) :
    next.world = state.world ∧
      (∃ records epoch, next.staking =
        { state.staking with validators := records, epoch := epoch }) ∧
      ∀ address, ∃ commission, Credited (state.staking.validator address)
        (next.staking.validator address) commission := by
  simp only [distributeRewards, bind_eq_ok, ensure_eq_ok, pure_eq_ok] at done
  obtain ⟨-, -, -, -, ⟨total, staking⟩, done, epoch, -, rfl⟩ := done
  obtain ⟨⟨records, rfl⟩, credited⟩ := creditRewards_ok done
  exact ⟨rfl, ⟨records, epoch, rfl⟩, credited⟩

def rewardOf (staking : ProtonStaking) (delegator address : Address) : Nat :=
  (staking.delegation delegator address).toNat * 10 ^ 18 /
      (staking.validator address).totalDelegated.toNat *
    (staking.validator address).rewardsAccumulated.toNat / 10 ^ 18

theorem calculateRewards_ok {staking : ProtonStaking} {delegator address : Address}
    {reward : U256} (done : calculateRewards staking delegator address = .ok reward) :
    reward.toNat = staking.rewardOf delegator address := by
  simp only [calculateRewards] at done
  split at done
  next none =>
    obtain rfl := Except.ok.inj done
    simp [rewardOf, none]
  · simp only [bind_eq_ok, mulDiv_eq_ok] at done
    obtain ⟨share, ⟨-, -, first⟩, -, -, second⟩ := done
    rw [second, first]
    rfl

theorem claimRewards_ok {address : Address} {reward : U256}
    (done : claimRewards env caller state address = .ok (reward, next)) :
    reward.toNat = state.staking.rewardOf caller address ∧ next.staking = state.staking ∧
      (reward.toNat = 0 ∧ next.world = state.world ∨
        env.erc20.transfer state.world state.staking.protonToken env.self caller reward =
          some next.world) := by
  simp only [claimRewards, bind_eq_ok] at done
  obtain ⟨quoted, calculated, done⟩ := done
  split at done
  next none =>
    obtain ⟨rfl, rfl⟩ := Prod.mk.inj (pure_eq_ok.mp done)
    subst none
    exact ⟨calculateRewards_ok calculated, rfl, .inl ⟨rfl, rfl⟩⟩
  · simp only [bind_eq_ok, transfer_eq_ok, pure_eq_ok] at done
    obtain ⟨world, paid, same⟩ := done
    obtain ⟨rfl, rfl⟩ := Prod.mk.inj same
    exact ⟨calculateRewards_ok calculated, rfl, .inr paid⟩

theorem slashValidator_ok {address : Address} {percentage : U256}
    (done : slashValidator caller state address percentage = .ok next) :
    address ∈ state.staking.isValidator ∧ next.world = state.world ∧ ∃ record,
      record.stake.toNat = (state.staking.validator address).stake.toNat -
        (state.staking.validator address).stake.toNat * percentage.toNat / 10000 ∧
      record.totalDelegated = (state.staking.validator address).totalDelegated ∧
      record.rewardsAccumulated = (state.staking.validator address).rewardsAccumulated ∧
      record.isActive = false ∧
      next.staking = state.staking.setValidator address record := by
  simp only [slashValidator, bind_eq_ok, ensure_eq_ok, mulDiv_eq_ok, sub_eq_ok, pure_eq_ok] at done
  obtain ⟨-, -, -, present, -, -, slashAmount, ⟨-, -, slashed⟩, staked, left, rfl⟩ := done
  let record : Validator := { state.staking.validator address with
    stake := staked
    isActive := false }
  have denominator : feeDenominator.toNat = 10000 := rfl
  rw [denominator] at slashed
  refine ⟨present, rfl, record, ?_, rfl, rfl, rfl, rfl⟩
  change staked.toNat = _
  omega

theorem setParameter_ok {change : ProtonStaking → ProtonStaking}
    (done : setParameter caller state change = .ok next) :
    next = { state with staking := change state.staking } := by
  simp only [setParameter, bind_eq_ok, ensure_eq_ok, pure_eq_ok] at done
  obtain ⟨-, -, rfl⟩ := done
  rfl

/-! ## What calls leave alone -/

def Input.unbondingPeriod (before : U256) : Input World → U256
  | .call _ _ (.setUnbondingPeriod newPeriod) => newPeriod
  | _ => before

def Input.minStake (before : U256) : Input World → U256
  | .call _ _ (.setMinStake newMinStake) => newMinStake
  | _ => before

def Input.queues : Input World → Bool
  | .call _ _ (.unstake _ _) => true
  | .call _ _ .processUnbonding => true
  | _ => false

/-- Whether an input writes a record, a delegation or the list of validators. -/
def Input.writes : Input World → Bool
  | .call _ _ .processUnbonding => false
  | .call _ _ (.claimRewards _) => false
  | .call _ _ (.setMinStake _) => false
  | .call _ _ (.setUnbondingPeriod _) => false
  | .call _ _ (.setZKVerifier _) => false
  | .outside _ _ => false
  | _ => true

theorem perform_claimRewards {now : U64} {target : Address}
    (performed : perform env state (.call caller now (.claimRewards target)) = .ok next) :
    ∃ reward, claimRewards env caller state target = .ok (reward, next) := by
  simp only [perform, bind_eq_ok, pure_eq_ok] at performed
  obtain ⟨⟨reward, _⟩, done, rfl⟩ := performed
  exact ⟨reward, done⟩

theorem perform_aside {input : Input World} (aside : input.writes = false)
    (performed : perform env state input = .ok next) :
    ∃ owner queue zkVerifier,
      (input.queues = false → queue = state.staking.unbondingQueue) ∧
        next.staking = { state.staking with
          owner := owner
          unbondingQueue := queue
          minStake := input.minStake state.staking.minStake
          unbondingPeriod := input.unbondingPeriod state.staking.unbondingPeriod
          zkVerifier := zkVerifier } := by
  cases input with
  | outside world owner =>
    obtain rfl := Except.ok.inj performed
    exact ⟨owner, _, _, fun _ => rfl, rfl⟩
  | call caller now call =>
    cases call with
    | processUnbonding =>
      -- only the scan writes to the queue
      obtain ⟨queue, -, books⟩ := processUnbonding_ok performed
      refine ⟨_, queue, _, fun quiet => ?_, books⟩
      cases quiet
    | claimRewards target =>
      obtain ⟨reward, done⟩ := perform_claimRewards performed
      exact ⟨_, _, _, fun _ => rfl, (claimRewards_ok done).2.1⟩
    | setMinStake newMinStake =>
      simp only [perform, setMinStake] at performed
      obtain rfl := setParameter_ok performed
      exact ⟨_, _, _, fun _ => rfl, rfl⟩
    | setUnbondingPeriod newPeriod =>
      simp only [perform, setUnbondingPeriod] at performed
      obtain rfl := setParameter_ok performed
      exact ⟨_, _, _, fun _ => rfl, rfl⟩
    | setZKVerifier newVerifier =>
      simp only [perform, setZKVerifier] at performed
      obtain rfl := setParameter_ok performed
      exact ⟨_, _, newVerifier, fun _ => rfl, rfl⟩
    | _ => cases aside

theorem perform_parameters {input : Input World} (performed : perform env state input = .ok next) :
    next.staking.protonToken = state.staking.protonToken ∧
      next.staking.unbondingPeriod = input.unbondingPeriod state.staking.unbondingPeriod := by
  cases input with
  | outside world owner =>
    obtain rfl := Except.ok.inj performed
    exact ⟨rfl, rfl⟩
  | call caller now call =>
    cases call with
    | registerValidator commission =>
      obtain ⟨-, record, -, -, -, -, rfl⟩ := registerValidator_ok performed
      exact ⟨rfl, rfl⟩
    | stake target amount =>
      obtain ⟨-, -, delegation, total, record, -, -, -, -, -, -, books⟩ := stake_ok performed
      rw [books]
      exact ⟨rfl, rfl⟩
    | privateStake target encryptedAmount commitment nullifier zkProof =>
      obtain ⟨-, -, record, nullifiers, encrypted, -, -, -, -, books⟩ := privateStake_ok performed
      rw [books]
      exact ⟨rfl, rfl⟩
    | unstake target amount =>
      obtain ⟨-, -, delegation, total, record, unlockHeight, -, -, -, -, -, -, -, books⟩ :=
        unstake_ok performed
      rw [books]
      exact ⟨rfl, rfl⟩
    | distributeRewards validators rewards =>
      obtain ⟨-, ⟨records, epoch, books⟩, -⟩ := distributeRewards_ok performed
      rw [books]
      exact ⟨rfl, rfl⟩
    | slashValidator target percentage =>
      obtain ⟨-, -, record, -, -, -, -, books⟩ := slashValidator_ok performed
      rw [books]
      exact ⟨rfl, rfl⟩
    | _ =>
      obtain ⟨owner, queue, zkVerifier, -, books⟩ := perform_aside rfl performed
      rw [books]
      exact ⟨rfl, rfl⟩

end Calls

end ProtonChain.Solidity.ProtonStaking
