import ProtonChain.Solidity.StakingPositions

/-! What a delegator can withdraw.

An unstake lowers the delegation and three totals of the validator. A slash lowers only one
of them, the stake, and so the last to withdraw after it may find too little there.
-/

set_option autoImplicit false

namespace ProtonChain.Solidity.ProtonStaking

open Checked

/-! ## Backed positions -/

namespace Position

def Backed (position : Position) : Prop :=
  ∀ delegator, position.delegations delegator ≤ position.stake

def Funded (position : Position) : Prop := position.delegatedTo ≤ position.stake

theorem Funded.backed {position : Position} (funded : position.Funded) (sound : position.Sound) :
    position.Backed :=
  fun delegator => (sound.delegation_le delegator).trans funded

section Moves
variable {position : Position} (delegator : Address) (amount : Nat)

theorem Backed.staked (backed : position.Backed) : (position.staked delegator amount).Backed := by
  intro other
  have enough := backed other
  simp only [Position.staked, Function.update_apply]
  split
  next own =>
    subst own
    exact Nat.add_le_add_right enough amount
  · exact enough.trans (Nat.le_add_right _ _)

/-- The delegator who withdraws leaves enough for the own rest, but maybe not for others. -/
theorem Backed.unstaked_iff (backed : position.Backed)
    (owned : amount ≤ position.delegations delegator) :
    (position.unstaked delegator amount).Backed ↔
      ∀ other, other ≠ delegator → position.delegations other + amount ≤ position.stake := by
  have enough := backed delegator
  constructor
  · intro after other apart
    have left := after other
    simp only [Position.unstaked, Function.update_of_ne apart] at left
    omega
  · intro leaves other
    simp only [Position.unstaked, Function.update_apply]
    split
    next own =>
      subst own
      exact Nat.sub_le_sub_right enough amount
    next apart => exact Nat.le_sub_of_add_le (leaves other apart)

end Moves

end Position

section Calls
variable {World : Type}

/-- Every delegator of a registered validator can unstake any part of the delegation, at any
time. -/
def Withdrawable (state : State World) : Prop :=
  ∀ address ∈ state.staking.isValidator, ∀ delegator amount,
    amount.toNat ≤ (state.staking.delegation delegator address).toNat →
      ∀ now, ∃ next, unstake delegator state now address amount = .ok next

/-- The unbonding period fits behind every time of a block. -/
def Timely (period : U256) : Prop := period.toNat + 2 ^ 64 ≤ 2 ^ 256

theorem withdrawable_of_backed {state : State World} (books : Books state.staking)
    (timely : Timely state.staking.unbondingPeriod)
    (backed : ∀ address, (state.staking.position address).Backed) : Withdrawable state := by
  intro address present delegator amount owned now
  have sound := books.sound address
  have total : amount.toNat ≤ (state.staking.delegatedTo address).toNat :=
    owned.trans (sound.delegation_le delegator)
  apply unstake_succeeds_iff.mpr
  constructor
  · exact present
  · exact owned
  · exact total
  · exact owned.trans (backed address delegator)
  · exact total.trans sound.counted
  · -- the time of a block leaves room for the period
    have time := now.isLt
    unfold Timely at timely
    omega

theorem Withdrawable.backed {state : State World} (withdrawable : Withdrawable state)
    (books : Books state.staking) (address : Address) :
    (state.staking.position address).Backed := by
  intro delegator
  by_cases present : address ∈ state.staking.isValidator
  · -- the whole delegation is one of the amounts
    have all := withdrawable address present delegator
      (state.staking.delegation delegator address) (Nat.le_refl _) 0
    exact (unstake_succeeds_iff.mp all).staked
  · rw [books.delegations_of_absent present delegator]
    exact Nat.zero_le _

/-! ## Steps -/

def PeriodsFit (_ : State World) : Input World → Prop
  | .call _ _ (.setUnbondingPeriod newPeriod) => Timely newPeriod
  | _ => True

/-- A slash leaves the stake at no less than any delegation, and an unstake at no less than
the delegation of any other. -/
def LeavesEach (state : State World) : Input World → Prop
  | .call _ _ (.slashValidator address percentage) => ∀ delegator,
    (state.staking.delegation delegator address).toNat ≤
      (state.staking.validator address).stake.toNat -
        (state.staking.validator address).stake.toNat * percentage.toNat / 10000
  | .call caller _ (.unstake address amount) => ∀ delegator, delegator ≠ caller →
    (state.staking.delegation delegator address).toNat + amount.toNat ≤
      (state.staking.validator address).stake.toNat
  | _ => True

/-- A slash leaves the stake at no less than all that is delegated. -/
def LeavesAll (state : State World) : Input World → Prop
  | .call _ _ (.slashValidator address percentage) =>
    (state.staking.delegatedTo address).toNat ≤
      (state.staking.validator address).stake.toNat -
        (state.staking.validator address).stake.toNat * percentage.toNat / 10000
  | _ => True

structure Orderly (state : State World) : Prop where
  books : Books state.staking
  timely : Timely state.staking.unbondingPeriod

variable {env : StakingEnv World} {state next : State World} {input : Input World}

theorem perform_orderly (orderly : Orderly state) (fits : PeriodsFit state input)
    (performed : perform env state input = .ok next) : Orderly next where
  books := perform_books orderly.books performed
  timely := by
    rw [(perform_parameters performed).2]
    cases input with
    | outside world owner => exact orderly.timely
    | call caller now call =>
      cases call with
      | setUnbondingPeriod newPeriod => exact fits
      | _ => exact orderly.timely

theorem perform_backed (orderly : Orderly state)
    (backed : ∀ address, (state.staking.position address).Backed)
    (performed : perform env state input = .ok next) :
    (∀ address, (next.staking.position address).Backed) ↔ LeavesEach state input := by
  have effect := perform_effect orderly.books.blank performed
  constructor
  · intro after
    cases input with
    | outside world owner => trivial
    | call caller now call =>
      cases call with
      | slashValidator target percentage =>
        have own := effect target
        have left := after target
        generalize next.staking.position target = position at own left
        cases own with
        | untouched _ apart => exact absurd rfl apart
        | slashed => exact left
      | unstake target amount =>
        have own := effect target
        have left := after target
        generalize next.staking.position target = position at own left
        cases own with
        | untouched _ apart => exact absurd rfl apart
        | unstaked _ _ _ owned => exact ((backed target).unstaked_iff _ _ owned).mp left
      | _ => trivial
  · -- each position at a time, by what the input does to it
    intro leaves address
    have own := effect address
    generalize next.staking.position address = position at own
    cases own with
    | untouched _ apart => exact backed address
    | staked caller now amount => exact (backed address).staked caller amount.toNat
    | privatelyStaked => exact backed address
    | unstaked caller now amount owned =>
      exact ((backed address).unstaked_iff _ _ owned).mpr leaves
    | rewarded =>
      intro delegator
      exact (backed address delegator).trans (Nat.le_add_right _ _)
    | slashed => exact leaves

theorem perform_withdrawable (orderly : Orderly state) (withdrawable : Withdrawable state)
    (fits : PeriodsFit state input) (performed : perform env state input = .ok next) :
    Withdrawable next ↔ LeavesEach state input := by
  have after := perform_orderly orderly fits performed
  rw [← perform_backed orderly (withdrawable.backed orderly.books) performed]
  constructor
  · intro now
    exact now.backed after.books
  · exact withdrawable_of_backed after.books after.timely

theorem perform_funded (orderly : Orderly state)
    (funded : ∀ address, (state.staking.position address).Funded) (leaves : LeavesAll state input)
    (performed : perform env state input = .ok next) (address : Address) :
    (next.staking.position address).Funded := by
  have effect := perform_effect orderly.books.blank performed address
  have now := funded address
  generalize next.staking.position address = position at effect
  cases effect with
  | untouched _ apart => exact now
  | staked => exact Nat.add_le_add_right now _
  | privatelyStaked => exact now
  | unstaked => exact Nat.sub_le_sub_right now _
  | rewarded => exact now.trans (Nat.le_add_right _ _)
  | slashed => exact leaves

end Calls

/-- From the deployment on, every delegator can withdraw what the books say in every state of
a run exactly if every slash and every unstake that goes through leaves the stake at no less
than each delegation that remains. Slashes that leave all that is delegated are enough. -/
theorem withdrawable_iff {World : Type} (env : StakingEnv World)
    (deployer protonToken zkVerifier : Address) (world : World) (inputs : List (Input World))
    (fits : Runs.Meets (step env) PeriodsFit
      ⟨ProtonStaking.new deployer protonToken zkVerifier, world⟩ inputs) :
    (Runs.Visits (step env) Withdrawable
        ⟨ProtonStaking.new deployer protonToken zkVerifier, world⟩ inputs ↔
      Runs.Meets (step env)
        (fun state input => Transactions.Succeeds (perform env) state input →
          LeavesEach state input)
        ⟨ProtonStaking.new deployer protonToken zkVerifier, world⟩ inputs) ∧
    (Runs.Meets (step env)
        (fun state input => Transactions.Succeeds (perform env) state input →
          LeavesAll state input)
        ⟨ProtonStaking.new deployer protonToken zkVerifier, world⟩ inputs →
      Runs.Visits (step env) Withdrawable
        ⟨ProtonStaking.new deployer protonToken zkVerifier, world⟩ inputs) := by
  have initial : Orderly ⟨ProtonStaking.new deployer protonToken zkVerifier, world⟩ := by
    have timely : Timely 604800 := by
      unfold Timely
      decide
    exact ⟨books_new deployer protonToken zkVerifier, timely⟩
  constructor
  · refine @Transactions.visits_iff_meets _ _ _ _ _ Orderly _ _ ?_ ?_ _ ?_ initial inputs fits
    · intro state input next orderly withdrawable fits performed
      exact perform_withdrawable orderly withdrawable fits performed
    · intro state input next orderly fits performed
      exact perform_orderly orderly fits performed
    · exact nofun
  · intro leaves
    let Kept (state : State World) : Prop :=
      Orderly state ∧ ∀ address, (state.staking.position address).Funded
    have visits := @Transactions.visits_of_keeps _ _ _ (perform env) Kept _ ?_ _
      ⟨initial, fun _ => Nat.le_refl 0⟩ inputs
      ((Runs.meets_and _ _ _ _ _).mpr ⟨fits, leaves⟩)
    · intro earlier later split
      obtain ⟨orderly, funded⟩ := visits earlier later split
      exact withdrawable_of_backed orderly.books orderly.timely fun address =>
        (funded address).backed (orderly.books.sound address)
    · rintro state input next ⟨orderly, funded⟩ ⟨fits, leaves⟩ performed
      exact ⟨perform_orderly orderly fits performed,
        perform_funded orderly funded (leaves ⟨next, performed⟩) performed⟩

namespace Sample

/-- A slash within what the commission has added to the stake. -/
def compounded : List (Input Solidity.Sample.Ledger) :=
  opening ++
    [call 9 (.distributeRewards [Sample.address 4] [1000 * ether]),
      call 9 (.slashValidator (Sample.address 4) 40)]

/-- Two delegators, a slash of half of the stake, and one of the two withdraws. -/
def halved : List (Input Solidity.Sample.Ledger) :=
  opening ++
    [call 5 (.stake (Sample.address 4) (10000 * ether)),
      call 9 (.slashValidator (Sample.address 4) 5000),
      call 3 (.unstake (Sample.address 4) (10000 * ether))]

end Sample

theorem withdrawable_sample :
    Runs.Visits (step Sample.env) Withdrawable (Sample.deployed 0) Sample.compounded := by
  refine (withdrawable_iff Sample.env (Sample.address 9) (Sample.address 1) (Sample.address 7)
    (Sample.ledger 0) Sample.compounded ⟨trivial, trivial, trivial, trivial, trivial⟩).2
    ⟨fun _ => trivial, fun _ => trivial, fun _ => trivial, fun _ => ?_, trivial⟩
  change (_ : Nat) ≤ _
  decide +kernel

/-- What is left of the stake pays the first of the two, and the other cannot withdraw. -/
theorem second_unstake_reverts :
    Runs.Meets (step Sample.env) PeriodsFit (Sample.deployed 0) Sample.halved ∧
      ¬ Runs.Visits (step Sample.env) Withdrawable (Sample.deployed 0) Sample.halved := by
  refine ⟨⟨trivial, trivial, trivial, trivial, trivial, trivial⟩, fun visits => ?_⟩
  have last := visits Sample.halved [] (List.append_nil _).symm (Sample.address 4)
    (by decide +kernel) (Sample.address 5) (10000 * ether) (by decide +kernel) 0
  have staked := (unstake_succeeds_iff.mp last).staked
  exact absurd staked (by decide +kernel)

end ProtonChain.Solidity.ProtonStaking
