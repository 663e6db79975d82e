import ProtonChain.Contracts.StakingTotals
import ProtonChain.Contracts.StakingUnbonding
import ProtonChain.Library.Flows
import ProtonChain.Library.History

/-! Where staked tokens are.

A stake is delegated until it is withdrawn, waits in the queue for the unbonding period, and goes
back to its delegator. Rewards and private stakes touch none of it. So whichever delegations are
looked at, what was staked on them is found in one of these three places.
-/

set_option autoImplicit false

namespace ProtonChain.Contracts.ProtonStaking

open Checked

/-! ## Three places -/

section Places
variable (chosen : Address × Address → Bool)

def weightOf (key : Address × Address) (amount : U128) : Nat :=
  if chosen key then amount.toNat else 0

def delegated (delegations : Delegations) : Nat :=
  FiniteMap.keyedTotal (weightOf chosen) delegations

def UnbondingEntry.weight (entry : UnbondingEntry) : Nat :=
  weightOf chosen (entry.delegator, entry.validator) entry.amount

/-- What entries hold of withdrawals from the chosen keys. -/
def queued (entries : List UnbondingEntry) : Nat :=
  (entries.map (UnbondingEntry.weight chosen)).sum

variable {World : Type}

def Input.stakes : Input World → Nat
  | .call caller _ (.stake validator amount) => weightOf chosen (caller, validator) amount
  | _ => 0

def Input.returns (staking : ProtonStaking) : Input World → Nat
  | .call _ height .processUnbonding =>
    queued chosen (staking.unbondingQueue.filter (unlocked height))
  | _ => 0

variable (host : StakingHost World)

def staked (start : State World) (inputs : List (Input World)) : Nat :=
  Transactions.moved (perform host) (fun _ input => input.stakes chosen) start inputs

def returned (start : State World) (inputs : List (Input World)) : Nat :=
  Transactions.moved (perform host) (fun state input => input.returns chosen state.staking) start
    inputs

end Places

theorem queued_append (chosen : Address × Address → Bool) (first second : List UnbondingEntry) :
    queued chosen (first ++ second) = queued chosen first + queued chosen second := by
  simp [queued]

/-- A block takes from the queue what it pays. -/
theorem queued_filter (chosen : Address × Address → Bool) (height : U64)
    (entries : List UnbondingEntry) :
    queued chosen (entries.filter fun entry => !unlocked height entry) +
        queued chosen (entries.filter (unlocked height)) = queued chosen entries := by
  induction entries with
  | nil => rfl
  | cons entry entries ih =>
    simp only [queued, List.filter_cons, List.map_cons, List.sum_cons] at ih ⊢
    cases due : unlocked height entry with
    | true =>
      simp only [Bool.not_true, Bool.false_eq_true, if_false, if_true, List.map_cons,
        List.sum_cons]
      omega
    | false =>
      simp only [Bool.not_false, Bool.false_eq_true, if_false, if_true, List.map_cons,
        List.sum_cons]
      omega

/-- The amount under one key has become another. -/
def Reweighed (before after : Delegations) (key : Address × Address) (old new : Nat) : Prop :=
  ∀ chosen : Address × Address → Bool,
    delegated chosen after + (if chosen key then old else 0) =
      delegated chosen before + if chosen key then new else 0

section Rows
variable (staking : ProtonStaking) (delegator validator : Address)

theorem weightAt_weightOf (chosen : Address × Address → Bool) :
    FiniteMap.weightAt (weightOf chosen (delegator, validator)) staking.delegations
        (delegator, validator) =
      if chosen (delegator, validator) then (staking.getDelegation delegator validator).toNat
      else 0 := by
  rw [FiniteMap.weightAt_getD _ _ _ 0 (by simp [weightOf])]
  rfl

theorem reweighed_insert (amount : U128) :
    Reweighed staking.delegations (staking.delegations.insert (delegator, validator) amount)
      (delegator, validator) (staking.getDelegation delegator validator).toNat amount.toNat := by
  intro chosen
  rw [← weightAt_weightOf]
  exact FiniteMap.keyedTotal_insert _ _ _ _

theorem reweighed_erase :
    Reweighed staking.delegations (staking.delegations.erase (delegator, validator))
      (delegator, validator) (staking.getDelegation delegator validator).toNat 0 := by
  intro chosen
  rw [← weightAt_weightOf, ite_self]
  exact FiniteMap.keyedTotal_erase _ _ _

theorem withdraw_reweighed {amount : U128} {delegations : Delegations}
    (done : withdraw delegator staking validator amount = .ok delegations) :
    ∃ rest, rest + amount.toNat = (staking.getDelegation delegator validator).toNat ∧
      Reweighed staking.delegations delegations (delegator, validator)
        (staking.getDelegation delegator validator).toNat rest := by
  rcases withdraw_cases done with ⟨whole, rfl⟩ | ⟨rest, left, rfl⟩
  · exact ⟨0, by rw [whole, Nat.zero_add], reweighed_erase staking delegator validator⟩
  · exact ⟨rest.toNat, left, reweighed_insert staking delegator validator rest⟩

end Rows

/-! ## What a call does -/

section Calls
variable {World : Type} {host : StakingHost World} {state next : State World}

/-- What an input that goes through does to the delegations and to the queue. -/
inductive Effect (staking next : ProtonStaking) : Input World → Prop
  | staked (caller : Address) (height : U64) (validator : Address) (amount : U128)
    (delegations : Reweighed staking.delegations next.delegations (caller, validator)
      (staking.getDelegation caller validator).toNat
      ((staking.getDelegation caller validator).toNat + amount.toNat))
    (queue : next.unbondingQueue = staking.unbondingQueue) :
    Effect staking next (.call caller height (.stake validator amount))
  | unstaked (caller : Address) (height : U64) (validator : Address) (amount : U128) (rest : Nat)
    (unlockHeight : U64)
    (left : rest + amount.toNat = (staking.getDelegation caller validator).toNat)
    (delegations : Reweighed staking.delegations next.delegations (caller, validator)
      (staking.getDelegation caller validator).toNat rest)
    (unlocks : unlockHeight.toNat = height.toNat + staking.unbondingPeriod.toNat)
    (queue : next.unbondingQueue =
      staking.unbondingQueue ++ [⟨caller, validator, amount, unlockHeight⟩]) :
    Effect staking next (.call caller height (.unstake validator amount))
  | processed (caller : Address) (height : U64)
    (delegations : next.delegations = staking.delegations)
    (queue : next.unbondingQueue =
      staking.unbondingQueue.filter fun entry => !unlocked height entry) :
    Effect staking next (.call caller height .processUnbonding)
  | kept (input : Input World) (stakes : ∀ chosen, input.stakes chosen = 0)
    (returns : ∀ chosen, input.returns chosen staking = 0)
    (delegations : next.delegations = staking.delegations)
    (queue : next.unbondingQueue = staking.unbondingQueue) : Effect staking next input

theorem creditRewards_kept {rewards : List (Address × U128)} {total total' : U128}
    {staking credited : ProtonStaking}
    (done : creditRewards rewards total staking = .ok (total', credited)) :
    credited = { staking with validators := credited.validators } := by
  induction rewards generalizing total staking with
  | nil =>
    obtain ⟨-, rfl⟩ := Prod.mk.inj (Except.ok.inj done)
    rfl
  | cons credit rest ih =>
    rw [creditRewards] at done
    split at done
    next info found =>
      simp only [bind_eq_ok] at done
      obtain ⟨_, -, _, -, _, -, _, -, done⟩ := done
      have kept := ih done
      exact kept
    next => exact ih done

theorem perform_effect {input : Input World} (performed : perform host state input = .ok next) :
    Effect state.staking next.staking input ∧
      next.staking.unbondingPeriod = state.staking.unbondingPeriod := by
  cases input with
  | outside world =>
    obtain rfl := Except.ok.inj performed
    exact ⟨.kept _ (fun _ => rfl) (fun _ => rfl) rfl rfl, rfl⟩
  | call caller height call =>
    cases call with
    | registerValidator commission =>
      simp only [perform, registerValidator, bind_eq_ok, pure_eq_ok] at performed
      obtain ⟨_, ⟨-, -, -, -, rfl⟩, rfl⟩ := performed
      exact ⟨.kept _ (fun _ => rfl) (fun _ => rfl) rfl rfl, rfl⟩
    | stake validator amount =>
      simp only [perform, stake, recordStake, bind_eq_ok, add_eq_ok, pure_eq_ok] at performed
      obtain ⟨-, -, info, -, world, -, _, ⟨delegation, grown, -, -, -, -, -, -, rfl⟩, rfl⟩ :=
        performed
      exact ⟨.staked _ _ _ _ (grown ▸ reweighed_insert _ _ _ delegation) rfl, rfl⟩
    | privateStake validator encryptedAmount zkProof commitment nullifier =>
      simp only [perform, privateStake, bind_eq_ok, pure_eq_ok] at performed
      obtain ⟨-, -, info, -, rfl⟩ := performed
      exact ⟨.kept _ (fun _ => rfl) (fun _ => rfl) rfl rfl, rfl⟩
    | unstake validator amount =>
      simp only [perform, unstake, bind_eq_ok, add_eq_ok, pure_eq_ok] at performed
      obtain ⟨_, ⟨-, -, delegations, withdrawn, info, -, -, -, -, -, -, -, unlockHeight, unlocks,
        rfl⟩, rfl⟩ := performed
      obtain ⟨rest, left, reweighed⟩ := withdraw_reweighed _ _ _ withdrawn
      exact ⟨.unstaked _ _ _ _ rest unlockHeight left reweighed unlocks rfl, rfl⟩
    | processUnbonding =>
      simp only [perform, processUnbonding_eq] at performed
      cases paid : (state.staking.unbondingQueue.filter (unlocked height)).foldlM (pay host)
          state.world with
      | none =>
        rw [paid] at performed
        cases performed
      | some world =>
        rw [paid] at performed
        obtain rfl := Except.ok.inj performed
        exact ⟨.processed _ _ rfl rfl, rfl⟩
    | distributeRewards rewards =>
      simp only [perform, distributeRewards, bind_eq_ok, pure_eq_ok] at performed
      obtain ⟨-, -, ⟨total, credited⟩, done, epoch, -, rfl⟩ := performed
      have kept := creditRewards_kept done
      refine ⟨.kept _ (fun _ => rfl) (fun _ => rfl) ?_ ?_, ?_⟩
      all_goals dsimp only; rw [kept]

variable {staking after : ProtonStaking} {input : Input World}

/-- Nothing is lost between the three places. -/
theorem Effect.balanced (effect : Effect staking after input)
    (chosen : Address × Address → Bool) :
    delegated chosen after.delegations + queued chosen after.unbondingQueue +
        input.returns chosen staking =
      delegated chosen staking.delegations + queued chosen staking.unbondingQueue +
        input.stakes chosen := by
  cases effect with
  | staked caller height validator amount delegations queue =>
    have grown := delegations chosen
    rw [queue]
    simp only [Input.returns, Input.stakes, weightOf]
    by_cases picked : chosen (caller, validator) = true
    · simp only [if_pos picked] at grown ⊢
      omega
    · simp only [if_neg picked] at grown ⊢
      omega
  | unstaked caller height validator amount rest unlockHeight left delegations unlocks queue =>
    have shrunk := delegations chosen
    rw [queue, queued_append]
    simp only [Input.returns, Input.stakes, queued, List.map_cons, List.map_nil, List.sum_cons,
      List.sum_nil, UnbondingEntry.weight, weightOf]
    by_cases picked : chosen (caller, validator) = true
    · simp only [if_pos picked] at shrunk ⊢
      omega
    · simp only [if_neg picked] at shrunk ⊢
      omega
  | processed caller height delegations queue =>
    have shared := queued_filter chosen height staking.unbondingQueue
    rw [delegations, queue]
    simp only [Input.returns, Input.stakes]
    omega
  | kept _ stakes returns delegations queue => rw [stakes, returns, delegations, queue]

theorem Effect.waits (effect : Effect staking after input) {entry : UnbondingEntry}
    (waits : entry ∈ after.unbondingQueue) :
    entry ∈ staking.unbondingQueue ∨ ∃ height,
      input = .call entry.delegator height (.unstake entry.validator entry.amount) ∧
        entry.unlockHeight.toNat = height.toNat + staking.unbondingPeriod.toNat := by
  cases effect with
  | staked _ _ _ _ _ queue => exact .inl (queue ▸ waits)
  | unstaked caller height validator amount rest unlockHeight left delegations unlocks queue =>
    rw [queue, List.mem_append, List.mem_singleton] at waits
    rcases waits with before | rfl
    · exact .inl before
    · exact .inr ⟨height, rfl, unlocks⟩
  | processed _ _ _ queue =>
    rw [queue] at waits
    exact .inl (List.mem_of_mem_filter waits)
  | kept _ _ _ _ queue => exact .inl (queue ▸ waits)

theorem unstake_succeeds_iff (totals : Totals state.staking) (caller validator : Address)
    (height : U64) (amount : U128) :
    Transactions.Succeeds (perform host) state (.call caller height (.unstake validator amount)) ↔
      validator ∈ state.staking.validators ∧
        amount.toNat ≤ (state.staking.getDelegation caller validator).toNat ∧
        height.toNat + state.staking.unbondingPeriod.toNat < 2 ^ 64 := by
  constructor
  · rintro ⟨next, performed⟩
    simp only [perform, unstake, bind_eq_ok, ensure_eq_ok, demand_eq_ok, add_eq_ok_iff_fits,
      pure_eq_ok] at performed
    obtain ⟨_, ⟨-, owned, -, -, info, found, -, -, -, -, -, -, unlockHeight, ⟨fits, -⟩, -⟩, -⟩ :=
      performed
    exact ⟨Finmap.mem_of_lookup_eq_some found, owned, fits⟩
  · rintro ⟨known, owned, fits⟩
    obtain ⟨info, found⟩ := Finmap.mem_iff.mp known
    obtain ⟨staking, done⟩ := totals.unstakes_registered found owned fits
    refine ⟨{ state with staking := staking }, ?_⟩
    rw [perform, done]
    rfl

theorem processUnbonding_succeeds_iff (caller : Address) (height : U64) :
    Transactions.Succeeds (perform host) state (.call caller height .processUnbonding) ↔
      ((state.staking.unbondingQueue.filter (unlocked height)).foldlM (pay host)
        state.world).isSome := by
  simp only [Transactions.Succeeds, perform, processUnbonding_eq]
  cases (state.staking.unbondingQueue.filter (unlocked height)).foldlM (pay host) state.world with
  | none =>
    refine iff_of_false ?_ Bool.false_ne_true
    rintro ⟨next, done⟩
    cases done
  | some world => exact iff_of_true ⟨_, rfl⟩ rfl

end Calls

/-! ## Runs -/

section Runs
variable {World : Type} (host : StakingHost World)

/-- What waits in the queue after a run was withdrawn in it, and is locked for the period since. -/
def Withdrawn (unbondingPeriod : U64) (inputs : List (Input World)) (entry : UnbondingEntry) :
    Prop :=
  ∃ earlier height later, inputs =
      earlier ++ .call entry.delegator height (.unstake entry.validator entry.amount) :: later ∧
    entry.unlockHeight.toNat = height.toNat + unbondingPeriod.toNat

theorem run_withdrawn (start : State World) (empty : start.staking.unbondingQueue = [])
    (inputs : List (Input World)) :
    (Runs.run (step host) start inputs).2.staking.unbondingPeriod =
        start.staking.unbondingPeriod ∧
      ∀ entry ∈ (Runs.run (step host) start inputs).2.staking.unbondingQueue,
        Withdrawn start.staking.unbondingPeriod inputs entry := by
  induction inputs using List.reverseRecOn with
  | nil =>
    refine ⟨rfl, fun entry waits => ?_⟩
    rw [Runs.run_nil, empty] at waits
    cases waits
  | append_singleton inputs input ih =>
    rw [Runs.run_concat]
    generalize (Runs.run (step host) start inputs).2 = state at ih ⊢
    obtain ⟨period, withdrawn⟩ := ih
    have earlier : ∀ entry ∈ state.staking.unbondingQueue,
        Withdrawn start.staking.unbondingPeriod (inputs ++ [input]) entry := by
      intro entry waits
      obtain ⟨earlier, height, later, rfl, unlocks⟩ := withdrawn entry waits
      exact ⟨earlier, height, later ++ [input], by simp, unlocks⟩
    by_cases succeeds : Transactions.Succeeds (perform host) state input
    · obtain ⟨next, performed⟩ := succeeds
      obtain ⟨effect, same⟩ := perform_effect performed
      rw [step, Transactions.step_of_ok performed]
      refine ⟨same.trans period, fun entry waits => ?_⟩
      rcases effect.waits waits with before | ⟨height, rfl, unlocks⟩
      · exact earlier entry before
      · exact ⟨inputs, height, [], rfl, period ▸ unlocks⟩
    · rw [step, Transactions.step_of_not_succeeds succeeds]
      exact ⟨period, earlier⟩

/-- After any run, whichever delegations are looked at, what is delegated, what waits in the queue
and what was paid back is what was staked. What waits was withdrawn one unbonding period before it
is unlocked; and a withdrawal goes through exactly if so much is delegated to a registered
validator and the height leaves room, and the end of a block exactly if the host pays what is
unlocked. -/
theorem stakes_accounted (minStake : U128) (commissionBase : U16) (unbondingPeriod : U64)
    (world : World) (inputs : List (Input World)) :
    let start : State World := ⟨new minStake commissionBase unbondingPeriod, world⟩
    ∃ reached, reached = (Runs.run (step host) start inputs).2 ∧
      (∀ chosen, delegated chosen reached.staking.delegations +
          queued chosen reached.staking.unbondingQueue + returned chosen host start inputs =
        staked chosen host start inputs) ∧
      (∀ entry ∈ reached.staking.unbondingQueue, Withdrawn unbondingPeriod inputs entry) ∧
      (∀ caller height validator amount, Transactions.Succeeds (perform host) reached
          (.call caller height (.unstake validator amount)) ↔
        validator ∈ reached.staking.validators ∧
          amount.toNat ≤ (reached.staking.getDelegation caller validator).toNat ∧
          height.toNat + unbondingPeriod.toNat < 2 ^ 64) ∧
      ∀ caller height, Transactions.Succeeds (perform host) reached
          (.call caller height .processUnbonding) ↔
        ((reached.staking.unbondingQueue.filter (unlocked height)).foldlM (pay host)
          reached.world).isSome := by
  intro start
  have keep : ∀ (state : State World) input next, Totals state.staking →
      perform host state input = .ok next → Totals next.staking :=
    fun _ _ _ totals performed => perform_totals totals performed
  have initial : Totals start.staking := totals_new minStake commissionBase unbondingPeriod
  have totals : Totals (Runs.run (step host) start inputs).2.staking :=
    Transactions.run_keeps keep initial inputs
  obtain ⟨period, withdrawn⟩ := run_withdrawn host start rfl inputs
  refine ⟨_, rfl, fun chosen => ?_, withdrawn, fun caller height validator amount => ?_,
    fun caller height => processUnbonding_succeeds_iff caller height⟩
  · have exact : ∀ (state : State World) input next, Totals state.staking →
        perform host state input = .ok next →
          delegated chosen next.staking.delegations + queued chosen next.staking.unbondingQueue +
              input.returns chosen state.staking + 0 =
            delegated chosen state.staking.delegations +
              queued chosen state.staking.unbondingQueue + input.stakes chosen + 0 :=
      fun _ _ _ _ performed => (perform_effect performed).1.balanced chosen
    exact (Transactions.balance keep exact start initial inputs).trans (Nat.zero_add _)
  · rw [unstake_succeeds_iff totals, period]
    rfl

end Runs

end ProtonChain.Contracts.ProtonStaking
