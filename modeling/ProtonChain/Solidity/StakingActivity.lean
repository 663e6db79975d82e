import ProtonChain.Library.History
import ProtonChain.Solidity.StakingCalls

/-! Which validators are active, against the stake that they have.

The flag is set by public stakes that reach the minimum and by every private stake, which
does not tell the amount. Withdrawals below the minimum and slashes clear it.
-/

set_option autoImplicit false

namespace ProtonChain.Solidity.ProtonStaking

open Checked

/-! ## One step -/

/-- A validator that is active after a step has the minimum, or was active with no more. -/
def Steady (minStake : U256) (before after : Validator) : Prop :=
  after.isActive = true → minStake.toNat ≤ after.stake.toNat ∨
    before.isActive = true ∧ before.stake.toNat ≤ after.stake.toNat

theorem Steady.refl (minStake : U256) (validator : Validator) :
    Steady minStake validator validator := fun active => .inr ⟨active, Nat.le_refl _⟩

theorem steady_setValidator {staking : ProtonStaking} {minStake : U256} {target : Address}
    {record : Validator} (steady : Steady minStake (staking.validator target) record)
    (address : Address) :
    Steady minStake (staking.validator address)
      ((staking.setValidator target record).validator address) := by
  rw [validator_setValidator]
  split
  next same => exact same ▸ steady
  next => exact Steady.refl minStake _

section Calls
variable {World : Type} {env : StakingEnv World} {caller : Address} {state next : State World}

theorem stake_steady {target : Address} {amount : U256}
    (done : stake env caller state target amount = .ok next) :
    next.staking.minStake = state.staking.minStake ∧ ∀ address,
      Steady state.staking.minStake (state.staking.validator address)
        (next.staking.validator address) := by
  obtain ⟨-, -, delegation, total, record, -, -, grown, -, -, flag, books⟩ := stake_ok done
  rw [books]
  refine ⟨rfl, steady_setValidator fun active => ?_⟩
  by_cases reached : state.staking.minStake ≤ record.stake
  · exact .inl (BitVec.le_def.mp reached)
  · rw [flag, if_neg reached] at active
    exact .inr ⟨active, grown ▸ Nat.le_add_right _ _⟩

theorem unstake_steady {now : U64} {target : Address} {amount : U256}
    (done : unstake caller state now target amount = .ok next) :
    next.staking.minStake = state.staking.minStake ∧ ∀ address,
      Steady state.staking.minStake (state.staking.validator address)
        (next.staking.validator address) := by
  obtain ⟨-, -, delegation, total, record, unlockHeight, -, -, -, -, -, flag, -, books⟩ :=
    unstake_ok done
  rw [books]
  refine ⟨rfl, steady_setValidator fun active => ?_⟩
  by_cases short : record.stake < state.staking.minStake
  · rw [flag, if_pos short] at active
    cases active
  · exact .inl (Nat.le_of_not_lt fun less => short (BitVec.lt_def.mpr less))

theorem slashValidator_steady {target : Address} {percentage : U256}
    (done : slashValidator caller state target percentage = .ok next) :
    next.staking.minStake = state.staking.minStake ∧ ∀ address,
      Steady state.staking.minStake (state.staking.validator address)
        (next.staking.validator address) := by
  obtain ⟨-, -, record, -, -, -, flag, books⟩ := slashValidator_ok done
  rw [books]
  refine ⟨rfl, steady_setValidator fun active => ?_⟩
  rw [flag] at active
  cases active

def Input.setsMinStake : Input World → Bool
  | .call _ _ (.setMinStake _) => true
  | _ => false

def PrivatelyStakes (env : StakingEnv World) (address : Address) (state : State World) :
    Input World → Prop
  | .call caller _ (.privateStake target encryptedAmount commitment nullifier zkProof) =>
    target = address ∧ ∃ next,
      privateStake env caller state target encryptedAmount commitment nullifier zkProof = .ok next
  | _ => False

theorem perform_steady {input : Input World} (fixed : input.setsMinStake = false)
    (performed : perform env state input = .ok next) :
    next.staking.minStake = state.staking.minStake ∧ ∀ address,
      PrivatelyStakes env address state input ∨
        Steady state.staking.minStake (state.staking.validator address)
          (next.staking.validator address) := by
  cases input with
  | outside world owner =>
    obtain rfl := Except.ok.inj performed
    exact ⟨rfl, fun address => .inr (Steady.refl _ _)⟩
  | call caller now call =>
    cases call with
    | registerValidator commission =>
      obtain ⟨-, record, -, -, -, inactive, rfl⟩ := registerValidator_ok performed
      refine ⟨rfl, fun address => .inr ?_⟩
      apply steady_setValidator
      intro active
      rw [inactive] at active
      cases active
    | stake target amount =>
      obtain ⟨same, steady⟩ := stake_steady performed
      exact ⟨same, fun address => .inr (steady address)⟩
    | privateStake target encryptedAmount commitment nullifier zkProof =>
      obtain ⟨-, -, record, nullifiers, encrypted, -, -, -, -, books⟩ := privateStake_ok performed
      rw [books]
      refine ⟨rfl, fun address => ?_⟩
      by_cases own : target = address
      · exact .inl ⟨own, next, performed⟩
      · right
        change Steady _ _ ((state.staking.setValidator target record).validator address)
        rw [validator_setValidator, if_neg (Ne.symm own)]
        exact Steady.refl _ _
    | unstake target amount =>
      obtain ⟨same, steady⟩ := unstake_steady performed
      exact ⟨same, fun address => .inr (steady address)⟩
    | distributeRewards validators rewards =>
      obtain ⟨-, ⟨records, epoch, books⟩, credited⟩ := distributeRewards_ok performed
      refine ⟨by rw [books], fun address => .inr fun active => ?_⟩
      obtain ⟨commission, credited⟩ := credited address
      exact .inr ⟨credited.active ▸ active, credited.stake ▸ Nat.le_add_right _ _⟩
    | slashValidator target percentage =>
      obtain ⟨same, steady⟩ := slashValidator_steady performed
      exact ⟨same, fun address => .inr (steady address)⟩
    | setMinStake newMinStake => cases fixed
    | _ =>
      obtain ⟨owner, queue, zkVerifier, -, books⟩ := perform_aside rfl performed
      rw [books]
      exact ⟨rfl, fun address => .inr (Steady.refl _ _)⟩

end Calls

/-! ## Runs -/

section Runs
variable {World : Type} (env : StakingEnv World) (start : State World)

/-- Where the minimum stays as it is, an active validator has it, or a private stake on it
has gone through and it was active in every state since. -/
def Justified (address : Address) (inputs : List (Input World)) (state : State World) : Prop :=
  (state.staking.validator address).isActive = true →
    state.staking.minStake.toNat ≤ (state.staking.validator address).stake.toNat ∨
      Runs.Since (step env) (PrivatelyStakes env address)
        (fun state _ => (state.staking.validator address).isActive = true) start inputs

variable {env start}

theorem Justified.step {address : Address} {inputs : List (Input World)} {last : Input World}
    (justified : Justified env start address inputs (Runs.run (step env) start inputs).2)
    (fixed : last.setsMinStake = false) :
    Justified env start address (inputs ++ [last])
      (step env (Runs.run (step env) start inputs).2 last).2 := by
  refine @Transactions.step_keeps _ _ _ _ _ _ (Justified env start address (inputs ++ [last]))
    (fun active => ?_) fun next performed active => ?_
  · -- an input that fails leaves the state as it is
    rw [Runs.since_concat]
    exact (justified active).imp_right fun since => .inr ⟨since, active⟩
  · obtain ⟨same, steady⟩ := perform_steady fixed performed
    rw [same, Runs.since_concat]
    rcases steady address with staked | steady
    · exact .inr (.inl staked)
    · rcases steady active with enough | ⟨before, grown⟩
      · exact .inl enough
      · exact (justified before).imp (fun enough => enough.trans grown)
          fun since => .inr ⟨since, before⟩

end Runs

/-- From the deployment on, in every state that is reached without setting the minimum, an
active validator has the minimum, or a private stake on it has gone through and it was active
in every state since. -/
theorem active_justified {World : Type} (env : StakingEnv World)
    (deployer protonToken zkVerifier : Address) (world : World) (inputs : List (Input World))
    (fixed : ∀ input ∈ inputs, input.setsMinStake = false) (address : Address) :
    Justified env ⟨ProtonStaking.new deployer protonToken zkVerifier, world⟩ address inputs
      (Runs.run (step env)
        ⟨ProtonStaking.new deployer protonToken zkVerifier, world⟩ inputs).2 := by
  induction inputs using List.reverseRecOn with
  | nil => exact fun active => nomatch active
  | append_singleton inputs last ih =>
    rw [Runs.run_concat]
    exact (ih fun input member => fixed input (List.mem_append_left _ member)).step
      (fixed last (List.mem_append_right _ (List.mem_singleton_self last)))

namespace Sample

/-- Address 4 registers, and address 3 stakes on it without telling an amount. -/
def privately : List (Input Solidity.Sample.Ledger) :=
  [call 4 (.registerValidator 500),
    call 3 (.privateStake (Sample.address 4) Hash.zero Hash.zero Hash.zero [])]

end Sample

theorem active_sample :
    Justified Sample.env (Sample.deployed 0) (Sample.address 4) Sample.opening
      (Runs.run (step Sample.env) (Sample.deployed 0) Sample.opening).2 :=
  active_justified Sample.env (Sample.address 9) (Sample.address 1) (Sample.address 7)
    (Sample.ledger 0) Sample.opening (by decide) (Sample.address 4)

/-- A private stake activates a validator that has no stake at all. -/
theorem private_stake_activates_without_stake :
    (∀ input ∈ Sample.privately, input.setsMinStake = false) ∧
      ((Runs.run (step Sample.env) (Sample.deployed 0) Sample.privately).2.staking.validator
        (Sample.address 4)).isActive = true ∧
      ((Runs.run (step Sample.env) (Sample.deployed 0) Sample.privately).2.staking.validator
          (Sample.address 4)).stake.toNat <
        (Runs.run (step Sample.env) (Sample.deployed 0)
          Sample.privately).2.staking.minStake.toNat := by
  decide +kernel

end ProtonChain.Solidity.ProtonStaking
