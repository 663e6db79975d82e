import ProtonChain.Library.Flows
import ProtonChain.Solidity.ActiveValidators
import ProtonChain.Solidity.StakingPositions
import ProtonChain.Solidity.StakingSolvency
import ProtonChain.Solidity.ValidatorSet

/-! What the views of the staking contract say of a whole run.

The total of the stakes is not the total of the delegations: commissions are compounded into it
and slashes are taken out of it, while the delegations stay as they are.
-/

set_option autoImplicit false

namespace ProtonChain.Solidity.ProtonStaking

open Checked

/-! ## Views -/

def getDelegation (staking : ProtonStaking) (delegator validator : Address) : U256 :=
  staking.delegation delegator validator

section Totals
variable (staking : ProtonStaking)

def totalStake : Nat := ∑ address ∈ staking.isValidator, (staking.validator address).stake.toNat

def totalCommission : Nat :=
  ∑ address ∈ staking.isValidator, (staking.validator address).rewardsAccumulated.toNat

end Totals

/-! ## What one call adds -/

section Calls
variable {World : Type} {env : StakingEnv World} {state next : State World} {input : Input World}
  {caller target : Address} {amount : U256}

/-- What a slash takes where it goes through. -/
def slashOf (state : State World) : Input World → Nat
  | .call _ _ (.slashValidator address percentage) =>
    (state.staking.validator address).stake.toNat * percentage.toNat / 10000
  | _ => 0

theorem totals_setValidator (staking : ProtonStaking) (present : target ∈ staking.isValidator)
    (record : Validator) :
    (staking.setValidator target record).totalStake + (staking.validator target).stake.toNat =
        staking.totalStake + record.stake.toNat ∧
      (staking.setValidator target record).totalCommission +
          (staking.validator target).rewardsAccumulated.toNat =
        staking.totalCommission + record.rewardsAccumulated.toNat := by
  have changed (field : Validator → Nat) :
      (∑ address ∈ staking.isValidator,
          field ((staking.setValidator target record).validator address)) +
          field (staking.validator target) =
        (∑ address ∈ staking.isValidator, field (staking.validator address)) + field record := by
    have moved := @FiniteMap.sum_change _ _ staking.isValidator
      (fun address => field (staking.validator address))
      (fun address => field ((staking.setValidator target record).validator address)) target present
      (fun other _ apart => by rw [validator_setValidator, if_neg apart])
    simpa using moved
  exact ⟨changed fun record => record.stake.toNat,
    changed fun record => record.rewardsAccumulated.toNat⟩

theorem totals_register (staking : ProtonStaking) (absent : caller ∉ staking.isValidator)
    {record : Validator} (stake : record.stake = 0) (rewards : record.rewardsAccumulated = 0) :
    (∑ address ∈ insert caller staking.isValidator,
        ((staking.setValidator caller record).validator address).stake.toNat) =
      staking.totalStake ∧
    (∑ address ∈ insert caller staking.isValidator,
        ((staking.setValidator caller record).validator address).rewardsAccumulated.toNat) =
      staking.totalCommission := by
  have others (field : Validator → Nat) (empty : field record = 0) :
      ∑ address ∈ insert caller staking.isValidator,
          field ((staking.setValidator caller record).validator address) =
        ∑ address ∈ staking.isValidator, field (staking.validator address) := by
    rw [Finset.sum_insert absent, validator_setValidator, if_pos rfl, empty, Nat.zero_add]
    refine Finset.sum_congr rfl fun address member => ?_
    rw [validator_setValidator, if_neg]
    rintro rfl
    exact absent member
  exact ⟨others (fun record => record.stake.toNat) (by rw [stake]; rfl),
    others (fun record => record.rewardsAccumulated.toNat) (by rw [rewards]; rfl)⟩

theorem slash_percentage {percentage : U256}
    (done : slashValidator caller state target percentage = .ok next) :
    percentage.toNat ≤ 10000 := by
  simp only [slashValidator, bind_eq_ok, ensure_eq_ok] at done
  obtain ⟨-, -, -, -, -, small, -⟩ := done
  exact small

/-- Stakes and credited commissions move together, except where delegations move or a slash takes
something. -/
theorem perform_totals (performed : perform env state input = .ok next) :
    next.staking.totalStake + slashOf state input + state.staking.delegated +
        state.staking.totalCommission =
      state.staking.totalStake + next.staking.delegated + next.staking.totalCommission := by
  cases input with
  | outside world owner =>
    obtain rfl := Except.ok.inj performed
    rfl
  | call caller now call =>
    cases call with
    | registerValidator commission =>
      obtain ⟨absent, record, stake, -, rewards, -, rfl⟩ := registerValidator_ok performed
      obtain ⟨stakes, commissions⟩ := totals_register state.staking absent stake rewards
      change (∑ address ∈ insert caller state.staking.isValidator,
          ((state.staking.setValidator caller record).validator address).stake.toNat) + 0 +
          state.staking.delegated + state.staking.totalCommission =
        state.staking.totalStake + state.staking.delegated +
          ∑ address ∈ insert caller state.staking.isValidator,
            ((state.staking.setValidator caller record).validator address).rewardsAccumulated.toNat
      rw [stakes, commissions, Nat.add_zero]
    | stake target amount =>
      obtain ⟨present, -, delegation, total, record, grown, -, staked, -, rewards, -, books⟩ :=
        stake_ok performed
      have written := delegated_setDelegation state.staking caller target delegation total
      obtain ⟨stakes, commissions⟩ := totals_setValidator
        (state.staking.setDelegation caller target delegation total) present record
      rw [validator_setDelegation, rewards] at commissions
      rw [validator_setDelegation] at stakes
      change _ + 0 + _ + _ = _
      rw [books]
      change _ = state.staking.totalStake +
        (state.staking.setDelegation caller target delegation total).delegated + _
      change _ = state.staking.totalStake + _ at stakes
      change _ = state.staking.totalCommission + _ at commissions
      omega
    | privateStake target encryptedAmount commitment nullifier zkProof =>
      obtain ⟨present, -, record, nullifiers, encrypted, staked, -, rewards, -, books⟩ :=
        privateStake_ok performed
      obtain ⟨stakes, commissions⟩ := totals_setValidator state.staking present record
      rw [staked] at stakes
      rw [rewards] at commissions
      rw [books]
      change (state.staking.setValidator target record).totalStake + 0 + _ + _ =
        _ + state.staking.delegated + (state.staking.setValidator target record).totalCommission
      omega
    | unstake target amount =>
      obtain ⟨present, -, delegation, total, record, unlockHeight, left, -, staked, -, rewards, -,
        -, books⟩ := unstake_ok performed
      have written := delegated_setDelegation state.staking caller target delegation total
      obtain ⟨stakes, commissions⟩ := totals_setValidator
        (state.staking.setDelegation caller target delegation total) present record
      rw [validator_setDelegation, rewards] at commissions
      rw [validator_setDelegation] at stakes
      rw [books]
      change ((state.staking.setDelegation caller target delegation total).setValidator target
          record).totalStake + 0 + _ + _ = state.staking.totalStake +
        (state.staking.setDelegation caller target delegation total).delegated +
          ((state.staking.setDelegation caller target delegation total).setValidator target
            record).totalCommission
      change _ = state.staking.totalStake + _ at stakes
      change _ = state.staking.totalCommission + _ at commissions
      omega
    | distributeRewards validators rewards =>
      obtain ⟨-, ⟨records, epoch, books⟩, credited⟩ := distributeRewards_ok performed
      -- what is compounded is also counted as a reward
      have each : ∀ address, (next.staking.validator address).stake.toNat +
            (state.staking.validator address).rewardsAccumulated.toNat =
          (state.staking.validator address).stake.toNat +
            (next.staking.validator address).rewardsAccumulated.toNat := by
        intro address
        obtain ⟨commission, moved⟩ := credited address
        rw [moved.stake, moved.rewards]
        omega
      have registered : next.staking.isValidator = state.staking.isValidator := by rw [books]
      have same : next.staking.delegated = state.staking.delegated := by
        rw [books]
        rfl
      have sums : next.staking.totalStake + state.staking.totalCommission =
          state.staking.totalStake + next.staking.totalCommission := by
        simp only [totalStake, totalCommission, registered, ← Finset.sum_add_distrib, each]
      change _ + 0 + _ + _ = _
      omega
    | slashValidator target percentage =>
      obtain ⟨present, -, record, staked, -, rewards, -, books⟩ := slashValidator_ok performed
      obtain ⟨stakes, commissions⟩ := totals_setValidator state.staking present record
      rw [rewards] at commissions
      rw [books]
      change (state.staking.setValidator target record).totalStake +
          (state.staking.validator target).stake.toNat * percentage.toNat / 10000 + _ + _ =
        _ + state.staking.delegated + (state.staking.setValidator target record).totalCommission
      have bounded : (state.staking.validator target).stake.toNat * percentage.toNat / 10000 ≤
          (state.staking.validator target).stake.toNat := by
        refine Nat.div_le_of_le_mul ?_
        rw [Nat.mul_comm]
        exact Nat.mul_le_mul_right _ (slash_percentage performed)
      omega
    | _ =>
      obtain ⟨owner, queue, zkVerifier, -, books⟩ := perform_aside rfl performed
      rw [books]
      rfl

end Calls

/-! ## Runs -/

section Runs
variable {World : Type} (env : StakingEnv World)

def slashed (start : State World) (inputs : List (Input World)) : Nat :=
  Transactions.moved (perform env) slashOf start inputs

/-- The stakes and what was slashed are the delegations and the commissions. -/
def Balanced (taken : Nat) (staking : ProtonStaking) : Prop :=
  staking.totalStake + taken = staking.delegated + staking.totalCommission

end Runs

end ProtonChain.Solidity.ProtonStaking
