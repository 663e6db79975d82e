import ProtonChain.Solidity.StakingCalls

/-! What the staking contract holds against what it owes its delegators.

Rewards are credited without a deposit and paid from the balance that holds the principal.
A claim is covered only where the contract holds more than delegations and withdrawals.
-/

set_option autoImplicit false

namespace ProtonChain.Solidity.ProtonStaking

open Checked

/-! ## Obligations -/

/-- What waits in the queue and is not processed. -/
def pending : List UnbondingEntry → Nat
  | [] => 0
  | entry :: rest => (if entry.processed then 0 else entry.amount.toNat) + pending rest

theorem pending_append (first second : List UnbondingEntry) :
    pending (first ++ second) = pending first + pending second := by
  induction first with
  | nil => exact (Nat.zero_add _).symm
  | cons entry rest ih =>
    rw [List.cons_append, pending, ih, pending]
    omega

def delegated (staking : ProtonStaking) : Nat := Mapping.tableSum staking.delegations

def obligations (staking : ProtonStaking) : Nat :=
  staking.delegated + pending staking.unbondingQueue

theorem delegated_setDelegation (staking : ProtonStaking) (delegator address : Address)
    (amount total : U256) :
    (staking.setDelegation delegator address amount total).delegated +
        (staking.delegation delegator address).toNat = staking.delegated + amount.toNat :=
  Mapping.tableSum_write staking.delegations delegator address amount

section Balances
variable {World : Type} (env : Env World)

def held (token : Address) (world : World) : Nat :=
  (env.erc20.balanceOf world token env.self).toNat

def Covered (state : State World) : Prop :=
  state.staking.obligations ≤ held env state.staking.protonToken state.world

variable {env} {token : Address}

theorem processEntries_ok (standard : env.erc20.Standard token) {now : U256}
    {queue queue' : List UnbondingEntry} {world world' : World}
    (done : processEntries env token now queue world = .ok (queue', world')) :
    pending queue' + held env token world ≤ pending queue + held env token world' := by
  induction queue generalizing queue' world world' with
  | nil =>
    obtain ⟨rfl, rfl⟩ := Prod.mk.inj (Except.ok.inj done)
    exact Nat.le_refl _
  | cons entry rest ih =>
    rw [processEntries] at done
    split at done
    next due =>
      simp only [bind_eq_ok, transfer_eq_ok, pure_eq_ok] at done
      obtain ⟨paid, transferred, ⟨later, last⟩, scanned, same⟩ := done
      obtain ⟨rfl, rfl⟩ : _ ∧ last = world' := Prod.mk.inj same
      -- the delegator may be the contract itself, which then loses nothing
      have loss := (standard.transfer _ _ _ _ _ transferred).loses env.self token
      have others := ih scanned
      simp only [if_true] at loss
      simp only [pending, due.1, if_true, Bool.false_eq_true, if_false]
      unfold held at others ⊢
      omega
    next early =>
      simp only [bind_eq_ok, pure_eq_ok] at done
      obtain ⟨⟨later, last⟩, scanned, same⟩ := done
      obtain ⟨rfl, rfl⟩ : _ ∧ last = world' := Prod.mk.inj same
      have others := ih scanned
      simp only [pending]
      omega

end Balances

/-! ## Runs -/

section Runs
variable {World : Type} (env : StakingEnv World)

/-- Calls come from others, and what happens outside takes nothing from the contract. -/
def Allowed (state : State World) : Input World → Prop
  | .call caller _ _ => caller ≠ env.self
  | .outside world _ =>
    held env.toEnv state.staking.protonToken state.world ≤
      held env.toEnv state.staking.protonToken world

/-- A reward is claimed from what the contract holds beyond its obligations. -/
def ClaimCovered (state : State World) (input : Input World) : Prop :=
  ∀ delegator address, input.claim = some (delegator, address) →
    state.staking.obligations + state.staking.rewardOf delegator address ≤
      held env.toEnv state.staking.protonToken state.world

/-- What an input that goes through does to the obligations and the world. -/
inductive Flow (state : State World) : Input World → Nat → World → Prop
  | kept (input : Input World) (quiet : input.claim = none) :
    Flow state input state.staking.obligations state.world
  | staked (caller : Address) (now : U64) (address : Address) (amount : U256) (world : World)
    (paid : env.erc20.transferFrom state.world state.staking.protonToken env.self caller env.self
      amount = some world) :
    Flow state (.call caller now (.stake address amount))
      (state.staking.obligations + amount.toNat) world
  | processed (caller : Address) (now : U64) (owed : Nat) (world : World)
    (paid : owed + held env.toEnv state.staking.protonToken state.world ≤
      state.staking.obligations + held env.toEnv state.staking.protonToken world) :
    Flow state (.call caller now .processUnbonding) owed world
  | claimed (caller : Address) (now : U64) (address : Address) (reward : U256) (world : World)
    (exact : reward.toNat = state.staking.rewardOf caller address)
    (paid : reward.toNat = 0 ∧ world = state.world ∨
      env.erc20.transfer state.world state.staking.protonToken env.self caller reward =
        some world) :
    Flow state (.call caller now (.claimRewards address)) state.staking.obligations world
  | outside (world : World) (owner : Address) :
    Flow state (.outside world owner) state.staking.obligations world

variable {env} {state next : State World} {input : Input World}

theorem stake_obligations {caller target : Address} {amount : U256}
    (done : stake env caller state target amount = .ok next) :
    next.staking.obligations = state.staking.obligations + amount.toNat := by
  obtain ⟨-, -, delegation, total, record, grown, -, -, -, -, -, books⟩ := stake_ok done
  have written := delegated_setDelegation state.staking caller target delegation total
  rw [books]
  change (state.staking.setDelegation caller target delegation total).delegated +
    pending state.staking.unbondingQueue = state.staking.delegated + _ + _
  omega

/-- What leaves the delegations enters the queue. -/
theorem unstake_obligations {caller target : Address} {now : U64} {amount : U256}
    (done : unstake caller state now target amount = .ok next) :
    next.staking.obligations = state.staking.obligations := by
  obtain ⟨-, -, delegation, total, record, unlockHeight, left, -, -, -, -, -, -, books⟩ :=
    unstake_ok done
  have written := delegated_setDelegation state.staking caller target delegation total
  rw [books]
  change (state.staking.setDelegation caller target delegation total).delegated +
    pending (state.staking.unbondingQueue ++ [_]) = state.staking.delegated + _
  rw [pending_append]
  simp only [pending, Bool.false_eq_true, if_false]
  omega

theorem perform_flow (standard : env.erc20.Standard state.staking.protonToken)
    (performed : perform env state input = .ok next) :
    Flow env state input next.staking.obligations next.world := by
  cases input with
  | outside world owner =>
    obtain rfl := Except.ok.inj performed
    exact .outside world owner
  | call caller now call =>
    cases call with
    | registerValidator commission =>
      obtain ⟨-, record, -, -, -, -, rfl⟩ := registerValidator_ok performed
      exact .kept _ rfl
    | stake target amount =>
      obtain ⟨-, paid, -⟩ := stake_ok performed
      rw [stake_obligations performed]
      exact .staked caller now target amount next.world paid
    | privateStake target encryptedAmount commitment nullifier zkProof =>
      obtain ⟨-, world, record, nullifiers, encrypted, -, -, -, -, books⟩ :=
        privateStake_ok performed
      rw [books, world]
      exact .kept _ rfl
    | unstake target amount =>
      obtain ⟨-, world, -⟩ := unstake_ok performed
      rw [unstake_obligations performed, world]
      exact .kept _ rfl
    | processUnbonding =>
      obtain ⟨queue, scanned, books⟩ := processUnbonding_ok performed
      have paid := processEntries_ok standard scanned
      refine .processed caller now _ next.world ?_
      rw [books]
      change state.staking.delegated + pending queue + _ ≤ state.staking.delegated + _ + _
      omega
    | distributeRewards validators rewards =>
      obtain ⟨world, ⟨records, epoch, books⟩, -⟩ := distributeRewards_ok performed
      rw [books, world]
      exact .kept _ rfl
    | claimRewards target =>
      obtain ⟨reward, done⟩ := perform_claimRewards performed
      obtain ⟨exact, books, paid⟩ := claimRewards_ok done
      rw [books]
      exact .claimed caller now target reward _ exact paid
    | slashValidator target percentage =>
      obtain ⟨-, world, record, -, -, -, -, books⟩ := slashValidator_ok performed
      rw [books, world]
      exact .kept _ rfl
    | setMinStake newMinStake =>
      simp only [perform, setMinStake] at performed
      obtain rfl := setParameter_ok performed
      exact .kept _ rfl
    | setUnbondingPeriod newPeriod =>
      simp only [perform, setUnbondingPeriod] at performed
      obtain rfl := setParameter_ok performed
      exact .kept _ rfl
    | setZKVerifier newVerifier =>
      simp only [perform, setZKVerifier] at performed
      obtain rfl := setParameter_ok performed
      exact .kept _ rfl

theorem perform_covered (standard : env.erc20.Standard state.staking.protonToken)
    (covered : Covered env.toEnv state) (allowed : Allowed env state input)
    (performed : perform env state input = .ok next) :
    Covered env.toEnv next ↔ ClaimCovered env state input := by
  have flow := perform_flow standard performed
  rw [Covered] at covered ⊢
  rw [(perform_parameters performed).1]
  generalize next.staking.obligations = owed at flow ⊢
  generalize next.world = after at flow ⊢
  cases flow with
  | kept _ quiet =>
    refine iff_of_true covered fun delegator address claims => ?_
    rw [quiet] at claims
    cases claims
  | staked caller now address amount world paid =>
    have received := (standard.transferFrom _ _ _ _ _ _ paid).received env.self
      state.staking.protonToken allowed.symm
    simp only [and_self, if_true] at received
    refine iff_of_true ?_ nofun
    unfold held at covered ⊢
    omega
  | processed caller now owed world paid => exact iff_of_true (by omega) nofun
  | claimed caller now address reward world exact paid =>
    -- a reward of zero makes no transfer
    have left : held env.toEnv state.staking.protonToken after + reward.toNat =
        held env.toEnv state.staking.protonToken state.world := by
      rcases paid with ⟨none, same⟩ | paid
      · rw [none, same, Nat.add_zero]
      · have sent := (standard.transfer _ _ _ _ _ paid).sent env.self
          state.staking.protonToken allowed.symm
        simp only [and_self, if_true] at sent
        exact sent
    constructor
    · intro still delegator address' claims
      obtain ⟨rfl, rfl⟩ := Prod.mk.inj (Option.some.inj claims)
      omega
    · intro within
      have room := within caller address rfl
      omega
  | outside world owner => exact iff_of_true (covered.trans allowed) nofun

end Runs

/-- From the deployment on, the balance covers all delegations and unprocessed withdrawals in
every state of a run exactly if every claim that goes through is covered. -/
theorem covered_iff {World : Type} (env : StakingEnv World)
    (deployer protonToken zkVerifier : Address) (standard : env.erc20.Standard protonToken)
    (world : World) (inputs : List (Input World))
    (allowed : Runs.Meets (step env) (Allowed env)
      ⟨ProtonStaking.new deployer protonToken zkVerifier, world⟩ inputs) :
    Runs.Visits (step env) (Covered env.toEnv)
        ⟨ProtonStaking.new deployer protonToken zkVerifier, world⟩ inputs ↔
      Runs.Meets (step env)
        (fun state input => Transactions.Succeeds (perform env) state input →
          ClaimCovered env state input)
        ⟨ProtonStaking.new deployer protonToken zkVerifier, world⟩ inputs := by
  let ForToken (state : State World) : Prop := state.staking.protonToken = protonToken
  refine @Transactions.visits_iff_meets _ _ _ _ _ ForToken _ _ ?_ ?_ _ ?_ rfl inputs allowed
  · intro state input next token covered allowed performed
    exact perform_covered (token ▸ standard) covered allowed performed
  · intro state input next token allowed performed
    exact (perform_parameters performed).1.trans token
  · exact Nat.zero_le _

namespace Sample

/-- 1000 are distributed, of which the commission is credited, and address 3 claims it. -/
def claiming : List (Input Solidity.Sample.Ledger) :=
  opening ++
    [call 9 (.distributeRewards [Sample.address 4] [1000 * ether]),
      call 3 (.claimRewards (Sample.address 4))]

theorem claiming_allowed (surplus : U256) :
    Runs.Meets (step env) (Allowed env) (deployed surplus) claiming := by
  have outsider : ∀ caller : UInt8, caller ≠ 8 → Sample.address caller ≠ Sample.address 8 :=
    fun caller other same => other (Sample.address_inj.mp same)
  exact ⟨outsider 4 (by decide), outsider 3 (by decide), outsider 9 (by decide),
    outsider 3 (by decide), trivial⟩

end Sample

/-- The contract holds the reward before it is claimed. -/
theorem covered_sample :
    Runs.Visits (step Sample.env) (Covered Sample.env.toEnv) (Sample.deployed (50 * ether))
      Sample.claiming := by
  refine (covered_iff Sample.env (Sample.address 9) (Sample.address 1) (Sample.address 7)
    (Solidity.Sample.erc20_standard _) (Sample.ledger (50 * ether)) Sample.claiming
    (Sample.claiming_allowed _)).mpr ⟨fun _ => nofun, fun _ => nofun, fun _ => nofun, ?_, trivial⟩
  intro _ delegator address claims
  obtain ⟨rfl, rfl⟩ := Prod.mk.inj (Option.some.inj claims)
  decide +kernel

/-- With nothing beyond the principal, a reward of 50 leaves 9950 for a delegation of 10000. -/
theorem reward_is_paid_from_principal :
    Sample.env.erc20.Standard (Sample.address 1) ∧
      Runs.Meets (step Sample.env) (Allowed Sample.env) (Sample.deployed 0) Sample.claiming ∧
      ¬ Runs.Visits (step Sample.env) (Covered Sample.env.toEnv) (Sample.deployed 0)
        Sample.claiming := by
  refine ⟨Solidity.Sample.erc20_standard _, Sample.claiming_allowed 0, ?_⟩
  intro visits
  have last := visits Sample.claiming [] (List.append_nil _).symm
  rw [Covered] at last
  exact absurd last (by decide +kernel)

end ProtonChain.Solidity.ProtonStaking
