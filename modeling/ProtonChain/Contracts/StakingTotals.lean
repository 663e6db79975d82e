import ProtonChain.Contracts.Staking

/-! The totals of the staking contract against the delegations they are totals of.

Each call writes its own choice of the totals. The delegations to one validator are summed
by their keys, so that a delegation which is removed and one which is stored as zero count
alike.
-/

set_option autoImplicit false

namespace ProtonChain.Contracts.ProtonStaking

open Checked

abbrev Delegations := HashMap (Address × Address) U128

/-! ## Sums -/

def sumAll (delegations : Delegations) : Nat := FiniteMap.total BitVec.toNat delegations

def weightTo (validator : Address) (key : Address × Address) (amount : U128) : Nat :=
  if key.2 = validator then amount.toNat else 0

def sumTo (delegations : Delegations) (validator : Address) : Nat :=
  FiniteMap.keyedTotal (weightTo validator) delegations

def sumDelegated (validators : HashMap Address ValidatorInfo) : Nat :=
  FiniteMap.total (fun info => info.totalDelegated.toNat) validators

/-- The amount under the key has become another in all sums. -/
structure Rewritten (before after : Delegations) (delegator validator : Address)
    (old new : Nat) : Prop where
  all : sumAll after + old = sumAll before + new
  each : ∀ other, sumTo after other + (if validator = other then old else 0) =
    sumTo before other + if validator = other then new else 0

section Rows
variable (staking : ProtonStaking) (delegator validator : Address)

theorem weightAt_delegation :
    FiniteMap.weightAt BitVec.toNat staking.delegations (delegator, validator) =
      (staking.getDelegation delegator validator).toNat :=
  FiniteMap.weightAt_getD BitVec.toNat _ _ 0 rfl

theorem weightAt_weightTo (other : Address) :
    FiniteMap.weightAt (weightTo other (delegator, validator)) staking.delegations
        (delegator, validator) =
      if validator = other then (staking.getDelegation delegator validator).toNat else 0 := by
  rw [FiniteMap.weightAt_getD _ _ _ 0 (by simp [weightTo])]
  rfl

theorem rewritten_insert (amount : U128) :
    Rewritten staking.delegations (staking.delegations.insert (delegator, validator) amount)
      delegator validator (staking.getDelegation delegator validator).toNat amount.toNat where
  all := by
    rw [← weightAt_delegation]
    exact FiniteMap.total_insert _ _ _ _
  each other := by
    rw [← weightAt_weightTo]
    exact FiniteMap.keyedTotal_insert _ _ _ _

theorem rewritten_erase :
    Rewritten staking.delegations (staking.delegations.erase (delegator, validator))
      delegator validator (staking.getDelegation delegator validator).toNat 0 where
  all := by
    rw [← weightAt_delegation]
    exact FiniteMap.total_erase _ _ _
  each other := by
    rw [← weightAt_weightTo, ite_self]
    exact FiniteMap.keyedTotal_erase _ _ _

theorem getDelegation_le_sumAll :
    (staking.getDelegation delegator validator).toNat ≤ sumAll staking.delegations := by
  rw [← weightAt_delegation]
  exact FiniteMap.weightAt_le_keyedTotal staking.delegations _ fun _ => BitVec.toNat

theorem getDelegation_le_sumTo :
    (staking.getDelegation delegator validator).toNat ≤ sumTo staking.delegations validator := by
  have below := FiniteMap.weightAt_le_keyedTotal staking.delegations (delegator, validator)
    (weightTo validator)
  rwa [weightAt_weightTo, if_pos rfl] at below

end Rows

/-! ## The totals -/

/-- The totals are the sums of what they stand for, and a validator has at least what is
delegated to it. -/
structure Totals (staking : ProtonStaking) : Prop where
  delegations : staking.totalStaked.toNat = sumAll staking.delegations
  validators : staking.totalStaked.toNat = sumDelegated staking.validators
  registered : ∀ validator info, staking.validators.lookup validator = some info →
    info.totalDelegated.toNat = sumTo staking.delegations validator ∧
      info.totalDelegated.toNat ≤ info.stake.toNat
  unregistered : ∀ validator, staking.validators.lookup validator = none →
    sumTo staking.delegations validator = 0

theorem totals_new (minStake : U128) (commissionBase : U16) (unbondingPeriod : U64) :
    Totals (new minStake commissionBase unbondingPeriod) where
  delegations := rfl
  validators := rfl
  registered validator info found := by
    rw [new, Finmap.lookup_empty] at found
    cases found
  unregistered _ _ := rfl

/-- The same books with one record rewritten. -/
theorem sumDelegated_insert {validators : HashMap Address ValidatorInfo} {validator : Address}
    {before : ValidatorInfo} (found : validators.lookup validator = some before)
    (after : ValidatorInfo) :
    sumDelegated (validators.insert validator after) + before.totalDelegated.toNat =
      sumDelegated validators + after.totalDelegated.toNat := by
  have written := FiniteMap.total_insert (fun info => info.totalDelegated.toNat) validators
    validator after
  rwa [FiniteMap.weightAt_of_lookup _ _ found] at written

section Calls
variable {staking next : ProtonStaking} {delegator validator : Address}
  {before after : ValidatorInfo}

/-- An amount comes in or goes out, in all places alike. -/
theorem Totals.moved (totals : Totals staking) (paidIn paidOut : Nat)
    (found : staking.validators.lookup validator = some before)
    (written : next.validators = staking.validators.insert validator after) {new : Nat}
    (rewritten : Rewritten staking.delegations next.delegations delegator validator
      (staking.getDelegation delegator validator).toNat new)
    (delegated : new + paidOut = (staking.getDelegation delegator validator).toNat + paidIn)
    (stake : after.stake.toNat + paidOut = before.stake.toNat + paidIn)
    (total : after.totalDelegated.toNat + paidOut = before.totalDelegated.toNat + paidIn)
    (all : next.totalStaked.toNat + paidOut = staking.totalStaked.toNat + paidIn) :
    Totals next where
  delegations := by
    have old := totals.delegations
    have sum := rewritten.all
    omega
  validators := by
    have old := totals.validators
    have sum := sumDelegated_insert found after
    rw [written]
    omega
  registered other info present := by
    have sum := rewritten.each other
    rw [written, FiniteMap.lookup_insert] at present
    split at present
    next same =>
      subst same
      obtain rfl := Option.some.inj present
      obtain ⟨counted, funded⟩ := totals.registered other before found
      simp only [if_true] at sum
      omega
    next apart =>
      simp only [Ne.symm apart, if_false, Nat.add_zero] at sum
      rw [sum]
      exact totals.registered other info present
  unregistered other absent := by
    have sum := rewritten.each other
    rw [written, FiniteMap.lookup_insert] at absent
    split at absent
    · cases absent
    next apart =>
      simp only [Ne.symm apart, if_false, Nat.add_zero] at sum
      rw [sum]
      exact totals.unregistered other absent

theorem Totals.credited (totals : Totals staking)
    (found : staking.validators.lookup validator = some before)
    (written : next.validators = staking.validators.insert validator after)
    (delegations : next.delegations = staking.delegations)
    (totalStaked : next.totalStaked = staking.totalStaked)
    (same : after.totalDelegated = before.totalDelegated)
    (grown : before.stake.toNat ≤ after.stake.toNat) : Totals next where
  delegations := by
    rw [totalStaked, delegations]
    exact totals.delegations
  validators := by
    have sum := sumDelegated_insert found after
    rw [same] at sum
    rw [totalStaked, written]
    exact totals.validators.trans (Nat.add_right_cancel sum).symm
  registered other info present := by
    rw [written, FiniteMap.lookup_insert] at present
    rw [delegations]
    split at present
    next own =>
      subst own
      obtain rfl := Option.some.inj present
      obtain ⟨counted, funded⟩ := totals.registered other before found
      rw [same]
      exact ⟨counted, funded.trans grown⟩
    next => exact totals.registered other info present
  unregistered other absent := by
    rw [written, FiniteMap.lookup_insert] at absent
    rw [delegations]
    split at absent
    · cases absent
    next => exact totals.unregistered other absent

/-! ## The calls -/

variable {caller : Address} {amount : U128}

theorem registerValidator_totals (totals : Totals staking) {commission : U16}
    (done : registerValidator caller staking commission = .ok next) : Totals next := by
  simp only [registerValidator, bind_eq_ok, ensure_eq_ok, pure_eq_ok] at done
  obtain ⟨-, -, -, absent, rfl⟩ := done
  have unknown := Finmap.lookup_eq_none.mpr absent
  constructor
  · exact totals.delegations
  · refine totals.validators.trans ?_
    rw [sumDelegated, sumDelegated, FiniteMap.total_insert_of_notMem _ _ _ absent]
    exact (Nat.zero_add _).symm
  · intro other info present
    rw [FiniteMap.lookup_insert] at present
    split at present
    next same =>
      -- nothing was delegated before the registration
      subst same
      obtain rfl := Option.some.inj present
      exact ⟨(totals.unregistered other unknown).symm, Nat.le_refl _⟩
    next => exact totals.registered other info present
  · intro other missing
    rw [FiniteMap.lookup_insert] at missing
    split at missing
    · cases missing
    next => exact totals.unregistered other missing

theorem recordStake_totals (totals : Totals staking)
    (found : staking.validators.lookup validator = some before)
    (done : recordStake caller staking validator before amount = .ok next) : Totals next := by
  simp only [recordStake, bind_eq_ok, add_eq_ok, pure_eq_ok] at done
  obtain ⟨delegation, grown, stake, staked, totalDelegated, counted, totalStaked, all, rfl⟩ := done
  exact totals.moved amount.toNat 0 found rfl
    (rewritten_insert staking caller validator delegation) grown staked counted all

/-- What is withdrawn as a whole leaves no entry behind, anything else what is left. -/
theorem withdraw_cases {delegations : Delegations}
    (done : withdraw caller staking validator amount = .ok delegations) :
    staking.getDelegation caller validator = amount ∧
        delegations = staking.delegations.erase (caller, validator) ∨
      ∃ rest : U128,
        rest.toNat + amount.toNat = (staking.getDelegation caller validator).toNat ∧
          delegations = staking.delegations.insert (caller, validator) rest := by
  simp only [withdraw] at done
  split at done
  next whole => exact .inl ⟨whole, (Except.ok.inj done).symm⟩
  next =>
    simp only [bind_eq_ok, sub_eq_ok, pure_eq_ok] at done
    obtain ⟨rest, left, rfl⟩ := done
    exact .inr ⟨rest, left, rfl⟩

theorem withdraw_ok {delegations : Delegations}
    (done : withdraw caller staking validator amount = .ok delegations) :
    ∃ rest, rest + amount.toNat = (staking.getDelegation caller validator).toNat ∧
      Rewritten staking.delegations delegations caller validator
        (staking.getDelegation caller validator).toNat rest := by
  rcases withdraw_cases done with ⟨whole, rfl⟩ | ⟨rest, left, rfl⟩
  · exact ⟨0, by rw [whole, Nat.zero_add], rewritten_erase staking caller validator⟩
  · exact ⟨rest.toNat, left, rewritten_insert staking caller validator rest⟩

theorem unstake_totals (totals : Totals staking) {height : U64}
    (done : unstake caller staking height validator amount = .ok next) : Totals next := by
  simp only [unstake, bind_eq_ok, demand_eq_ok, sub_eq_ok, pure_eq_ok] at done
  obtain ⟨-, -, delegations, withdrawn, info, found, stake, staked, totalDelegated, counted,
    totalStaked, all, unlockHeight, -, rfl⟩ := done
  obtain ⟨rest, left, rewritten⟩ := withdraw_ok withdrawn
  exact totals.moved 0 amount.toNat found rfl rewritten left staked counted all

theorem creditRewards_totals {rewards : List (Address × U128)} {total total' : U128}
    (totals : Totals staking)
    (done : creditRewards rewards total staking = .ok (total', next)) : Totals next := by
  induction rewards generalizing total staking with
  | nil =>
    obtain ⟨-, rfl⟩ := Prod.mk.inj (Except.ok.inj done)
    exact totals
  | cons credit rest ih =>
    rw [creditRewards] at done
    split at done
    next info found =>
      simp only [bind_eq_ok, add_eq_ok] at done
      obtain ⟨commission, -, -, -, stake, staked, _, -, done⟩ := done
      refine ih ?_ done
      exact totals.credited found rfl rfl rfl rfl (staked ▸ Nat.le_add_right _ _)
    next => exact ih totals done

theorem Totals.unstakes_registered (totals : Totals staking) {height : U64} {info : ValidatorInfo}
    (found : staking.validators.lookup validator = some info)
    (owned : amount.toNat ≤ (staking.getDelegation caller validator).toNat)
    (fits : height.toNat + staking.unbondingPeriod.toNat < 2 ^ 64) :
    ∃ next, unstake caller staking height validator amount = .ok next := by
  have below := getDelegation_le_sumTo staking caller validator
  have all := getDelegation_le_sumAll staking caller validator
  have sum := totals.delegations
  obtain ⟨counted, funded⟩ := totals.registered validator info found
  have withdrawn : ∃ delegations,
      withdraw caller staking validator amount = .ok delegations := by
    simp only [withdraw]
    split
    · exact ⟨_, rfl⟩
    · simp only [bind_eq_ok, sub_eq_ok_iff_le, pure_eq_ok]
      exact ⟨_, _, ⟨owned, rfl⟩, rfl⟩
  obtain ⟨delegations, withdrawn⟩ := withdrawn
  simp only [unstake, bind_eq_ok, ensure_eq_ok, demand_eq_ok, sub_eq_ok_iff_le,
    add_eq_ok_iff_fits, pure_eq_ok]
  exact ⟨_, (), owned, delegations, withdrawn, info, found, _, ⟨by omega, rfl⟩, _,
    ⟨by omega, rfl⟩, _, ⟨by omega, rfl⟩, _, ⟨fits, rfl⟩, rfl⟩

theorem Totals.unstakes (totals : Totals staking) {height : U64} (positive : 0 < amount.toNat)
    (owned : amount.toNat ≤ (staking.getDelegation caller validator).toNat)
    (fits : height.toNat + staking.unbondingPeriod.toNat < 2 ^ 64) :
    ∃ next, unstake caller staking height validator amount = .ok next := by
  have below := getDelegation_le_sumTo staking caller validator
  have registered : ∃ info, staking.validators.lookup validator = some info := by
    cases found : staking.validators.lookup validator with
    | some info => exact ⟨info, rfl⟩
    | none =>
      -- there would be nothing delegated to it
      have none := totals.unregistered validator found
      omega
  obtain ⟨info, found⟩ := registered
  exact totals.unstakes_registered found owned fits

/-- A withdrawal takes the amount off the one delegation, off both counts of its validator and
off the total, and owes it to the delegator once the unbonding period is over. -/
structure Unstaked (staking : ProtonStaking) (delegator validator : Address) (amount : U128)
    (height : U64) (next : ProtonStaking) : Prop where
  delegation : (next.getDelegation delegator validator).toNat + amount.toNat =
    (staking.getDelegation delegator validator).toNat
  others : ∀ other target, (other, target) ≠ (delegator, validator) →
    next.getDelegation other target = staking.getDelegation other target
  record : ∃ before after, staking.validators.lookup validator = some before ∧
    next.validators = staking.validators.insert validator after ∧
      after.stake.toNat + amount.toNat = before.stake.toNat ∧
        after.totalDelegated.toNat + amount.toNat = before.totalDelegated.toNat
  total : next.totalStaked.toNat + amount.toNat = staking.totalStaked.toNat
  owed : ∃ unlockHeight : U64,
    unlockHeight.toNat = height.toNat + staking.unbondingPeriod.toNat ∧
      next.unbondingQueue =
        staking.unbondingQueue ++ [⟨delegator, validator, amount, unlockHeight⟩]

theorem withdraw_lookup {delegations : Delegations}
    (done : withdraw caller staking validator amount = .ok delegations) :
    ((delegations.lookup (caller, validator)).getD 0).toNat + amount.toNat =
        (staking.getDelegation caller validator).toNat ∧
      ∀ key, key ≠ (caller, validator) →
        delegations.lookup key = staking.delegations.lookup key := by
  rcases withdraw_cases done with ⟨whole, rfl⟩ | ⟨rest, left, rfl⟩
  · constructor
    · rw [Finmap.lookup_erase, whole]
      exact Nat.zero_add _
    · exact fun key apart => Finmap.lookup_erase_ne apart
  · constructor
    · rw [Finmap.lookup_insert]
      exact left
    · exact fun key apart => Finmap.lookup_insert_of_ne _ apart

theorem unstaked_of_unstake {height : U64}
    (done : unstake caller staking height validator amount = .ok next) :
    Unstaked staking caller validator amount height next := by
  simp only [unstake, bind_eq_ok, demand_eq_ok, sub_eq_ok, add_eq_ok, pure_eq_ok] at done
  obtain ⟨-, -, delegations, withdrawn, before, found, stake, staked, totalDelegated, counted,
    totalStaked, all, unlockHeight, unlocks, rfl⟩ := done
  obtain ⟨own, others⟩ := withdraw_lookup withdrawn
  exact {
    delegation := own
    others := fun other target apart => by rw [getDelegation, getDelegation, others _ apart]
    record := ⟨before, _, found, rfl, staked, counted⟩
    total := all
    owed := ⟨unlockHeight, unlocks, rfl⟩ }

end Calls

/-! ## Runs -/

section Runs
variable {World : Type} {host : StakingHost World} {state next : State World}
  {input : Input World}

theorem perform_totals (totals : Totals state.staking)
    (performed : perform host state input = .ok next) : Totals next.staking := by
  cases input with
  | outside world =>
    obtain rfl := Except.ok.inj performed
    exact totals
  | call caller height call =>
    cases call with
    | registerValidator commission =>
      simp only [perform, bind_eq_ok, pure_eq_ok] at performed
      obtain ⟨staking, done, rfl⟩ := performed
      exact registerValidator_totals totals done
    | stake validator amount =>
      simp only [perform, stake, bind_eq_ok, demand_eq_ok, pure_eq_ok] at performed
      obtain ⟨-, -, info, found, world, -, staking, done, rfl⟩ := performed
      exact recordStake_totals totals found done
    | privateStake validator encryptedAmount zkProof commitment nullifier =>
      simp only [perform, privateStake, bind_eq_ok, demand_eq_ok, pure_eq_ok] at performed
      obtain ⟨-, -, info, found, rfl⟩ := performed
      exact totals.credited found rfl rfl rfl rfl (Nat.le_refl _)
    | unstake validator amount =>
      simp only [perform, bind_eq_ok, pure_eq_ok] at performed
      obtain ⟨staking, done, rfl⟩ := performed
      exact unstake_totals totals done
    | processUnbonding =>
      simp only [perform, processUnbonding, bind_eq_ok, pure_eq_ok] at performed
      obtain ⟨paid, -, queue, -, rfl⟩ := performed
      exact ⟨totals.delegations, totals.validators, totals.registered, totals.unregistered⟩
    | distributeRewards rewards =>
      simp only [perform, distributeRewards, bind_eq_ok, pure_eq_ok] at performed
      obtain ⟨-, -, ⟨total, staking⟩, done, epoch, -, rfl⟩ := performed
      have credited := creditRewards_totals totals done
      exact ⟨credited.delegations, credited.validators, credited.registered,
        credited.unregistered⟩

end Runs

/-- The totals are right, and what is delegated can be withdrawn at any height that leaves
room for the unbonding period. -/
structure Consistent (staking : ProtonStaking) : Prop where
  totals : Totals staking
  withdrawable : ∀ (delegator validator : Address) (amount : U128) (height : U64),
    0 < amount.toNat → amount.toNat ≤ (staking.getDelegation delegator validator).toNat →
      height.toNat + staking.unbondingPeriod.toNat < 2 ^ 64 →
        ∃ next, unstake delegator staking height validator amount = .ok next ∧
          Unstaked staking delegator validator amount height next

/-- From the deployment on, in every state of a run the totals are the sums of the delegations,
each validator has at least what is delegated to it, and every delegation can be withdrawn. -/
theorem consistent_run {World : Type} (host : StakingHost World) (minStake : U128)
    (commissionBase : U16) (unbondingPeriod : U64) (world : World) (inputs : List (Input World)) :
    Runs.Visits (step host) (fun state => Consistent state.staking)
      ⟨new minStake commissionBase unbondingPeriod, world⟩ inputs := by
  let Kept (state : State World) : Prop := Totals state.staking
  have initial : Kept ⟨new minStake commissionBase unbondingPeriod, world⟩ :=
    totals_new minStake commissionBase unbondingPeriod
  have visits := @Transactions.visits_of_keeps _ _ _ (perform host) Kept (fun _ _ => True)
    (fun _ _ _ totals _ performed => perform_totals totals performed) _ initial inputs
    ((Runs.meets_const _ (fun _ => True) _ inputs).mpr fun _ _ => trivial)
  intro earlier later split
  have totals := visits earlier later split
  refine ⟨totals, fun delegator validator amount height positive owned fits => ?_⟩
  obtain ⟨next, done⟩ := totals.unstakes positive owned fits
  exact ⟨next, done, unstaked_of_unstake done⟩

namespace Sample

def deployed : State Unit := ⟨new 10000 500 100, ()⟩

def call (sender : UInt8) (call : Call) : Input Unit := .call (Sample.address sender) 7 call

/-- Two delegators stake, one of them in two parts. -/
def staked : List (Input Unit) :=
  [call 4 (.registerValidator 300),
    call 3 (.stake (Sample.address 4) 20000),
    call 5 (.stake (Sample.address 4) 10000),
    call 3 (.stake (Sample.address 4) 10000)]

end Sample

/-- Of three times the minimum, a part can be withdrawn. -/
theorem consistent_run_withdraws :
    ∃ next, unstake (Sample.address 3)
        (Runs.run (step Contracts.Sample.stakingHost) Sample.deployed Sample.staked).2.staking 9
        (Sample.address 4) 25000 = .ok next ∧
      Unstaked
        (Runs.run (step Contracts.Sample.stakingHost) Sample.deployed Sample.staked).2.staking
        (Sample.address 3) (Sample.address 4) 25000 9 next := by
  have visits := consistent_run Contracts.Sample.stakingHost 10000 500 100 () Sample.staked
  have last := visits Sample.staked [] (List.append_nil _).symm
  exact last.withdrawable _ _ _ _ (by decide) (by decide +kernel) (by decide +kernel)

end ProtonChain.Contracts.ProtonStaking
