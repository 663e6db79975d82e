import ProtonChain.Solidity.StakingPositions

/-! What is paid out as rewards against what was credited.

A claim pays the share of the delegator in all rewards ever credited and writes nothing
down, so the next claim is paid as if it were the first. Payments are kept here on a record
beside the contract.
-/

set_option autoImplicit false

namespace ProtonChain.Solidity.ProtonStaking

open Checked

/-! ## The record of payments -/

structure Payment where
  delegator : Address
  validator : Address
  amount : U256

def paidFor (address : Address) : List Payment → Nat
  | [] => 0
  | payment :: rest =>
    (if payment.validator = address then payment.amount.toNat else 0) + paidFor address rest

def claimants (address : Address) : List Payment → Finset Address
  | [] => ∅
  | payment :: rest =>
    if payment.validator = address then insert payment.delegator (claimants address rest)
    else claimants address rest

/-- No delegator was paid twice for one validator. -/
def PaidOnce (payments : List Payment) : Prop :=
  payments.Pairwise fun later earlier =>
    earlier.validator = later.validator → earlier.delegator ≠ later.delegator

theorem mem_claimants {address delegator : Address} {payments : List Payment} :
    delegator ∈ claimants address payments ↔
      ∃ payment ∈ payments, payment.validator = address ∧ payment.delegator = delegator := by
  induction payments with
  | nil => simp [claimants]
  | cons payment rest ih =>
    rw [claimants]
    split
    next own => simp [ih, own, eq_comm]
    next apart => simp [ih, apart]

/-- A bound on each payment bounds their sum, where nobody is paid twice. -/
theorem paidFor_le_sum {address : Address} {payments : List Payment} (once : PaidOnce payments)
    (bound : Address → Nat)
    (within : ∀ payment ∈ payments, payment.validator = address →
      payment.amount.toNat ≤ bound payment.delegator) :
    paidFor address payments ≤ ∑ delegator ∈ claimants address payments, bound delegator := by
  induction payments with
  | nil => exact Nat.le_refl 0
  | cons payment rest ih =>
    obtain ⟨apart, once⟩ := List.pairwise_cons.mp once
    obtain ⟨first, others⟩ := List.forall_mem_cons.mp within
    have tail := ih once others
    rw [paidFor, claimants]
    split
    next own =>
      have fresh : payment.delegator ∉ claimants address rest := by
        intro member
        obtain ⟨earlier, held, same, paid⟩ := mem_claimants.mp member
        exact apart earlier held (same.trans own.symm) paid
      rw [Finset.sum_insert fresh]
      exact Nat.add_le_add (first own) tail
    next => rwa [Nat.zero_add]

/-! ## Audited steps -/

structure Audit (World : Type) where
  state : State World
  payments : List Payment

section Steps
variable {World : Type} (env : StakingEnv World)

def performAudited (audit : Audit World) (input : Input World) :
    Outcome StakingError (Audit World) :=
  match input.claim with
  | some (delegator, address) => do
    let (reward, state) ← claimRewards env delegator audit.state address
    return ⟨state, if reward = 0 then audit.payments
      else ⟨delegator, address, reward⟩ :: audit.payments⟩
  | none => do
    let state ← perform env audit.state input
    return ⟨state, audit.payments⟩

def auditedStep : Audit World → Input World → Except (Fault StakingError) Unit × Audit World :=
  Transactions.step (performAudited env)

variable {env}

theorem claim_eq_some {input : Input World} {delegator address : Address}
    (claims : input.claim = some (delegator, address)) :
    ∃ now, input = .call delegator now (.claimRewards address) := by
  cases input with
  | outside world owner => cases claims
  | call caller now call =>
    cases call with
    | claimRewards target =>
      obtain ⟨rfl, rfl⟩ := Prod.mk.inj (Option.some.inj claims)
      exact ⟨now, rfl⟩
    | _ => cases claims

theorem map_performAudited (audit : Audit World) (input : Input World) :
    (performAudited env audit input).map Audit.state = perform env audit.state input := by
  rw [performAudited]
  split
  next delegator address claims =>
    obtain ⟨now, rfl⟩ := claim_eq_some claims
    rw [perform]
    cases claimRewards env delegator audit.state address <;> rfl
  next quiet => cases perform env audit.state input <;> rfl

theorem state_auditedStep (audit : Audit World) (input : Input World) :
    (auditedStep env audit input).2.state = (step env audit.state input).2 := by
  rw [auditedStep, step, Transactions.step, Transactions.step, ← map_performAudited]
  cases performAudited env audit input <;> rfl

theorem state_run_auditedStep (start : Audit World) (inputs : List (Input World)) :
    (Runs.run (auditedStep env) start inputs).2.state =
      (Runs.run (step env) start.state inputs).2 :=
  Runs.run_erase (step env) (auditedStep env) Audit.state state_auditedStep start inputs

/-- What an input that goes through adds to the record. -/
inductive Recorded (audit : Audit World) : Input World → List Payment → Prop
  | quiet (input : Input World) (quiet : input.claim = none) :
    Recorded audit input audit.payments
  | claimed (caller : Address) (now : U64) (address : Address) (reward : U256)
    (exact : reward.toNat = (audit.state.staking.position address).reward caller)
    (payments : List Payment)
    (record : payments = if reward = 0 then audit.payments
      else ⟨caller, address, reward⟩ :: audit.payments) :
    Recorded audit (.call caller now (.claimRewards address)) payments

variable {audit next : Audit World} {input : Input World}

theorem performAudited_ok (done : performAudited env audit input = .ok next) :
    perform env audit.state input = .ok next.state ∧ Recorded audit input next.payments := by
  refine ⟨?_, ?_⟩
  · rw [← map_performAudited, done]
    rfl
  · rw [performAudited] at done
    split at done
    next delegator address claims =>
      obtain ⟨now, rfl⟩ := claim_eq_some claims
      simp only [bind_eq_ok, pure_eq_ok] at done
      obtain ⟨⟨reward, state⟩, claimed, rfl⟩ := done
      exact .claimed delegator now address reward (claimRewards_ok claimed).1 _ rfl
    next quiet =>
      simp only [bind_eq_ok, pure_eq_ok] at done
      obtain ⟨state, -, rfl⟩ := done
      exact .quiet input quiet

/-! ## The exact condition -/

def Within (audit : Audit World) : Prop :=
  ∀ address, paidFor address audit.payments ≤
    (audit.state.staking.validator address).rewardsAccumulated.toNat

/-- A claim asks for no more than what was credited and not paid yet. -/
def ClaimWithin (audit : Audit World) (input : Input World) : Prop :=
  ∀ delegator address, input.claim = some (delegator, address) →
    paidFor address audit.payments + audit.state.staking.rewardOf delegator address ≤
      (audit.state.staking.validator address).rewardsAccumulated.toNat

theorem paidFor_record (payments : List Payment) (caller target : Address) (reward : U256)
    (address : Address) :
    paidFor address (if reward = 0 then payments else ⟨caller, target, reward⟩ :: payments) =
      (if target = address then reward.toNat else 0) + paidFor address payments := by
  split
  next none =>
    subst none
    simp
  next => rfl

theorem position_of_claim (blank : Blank audit.state.staking) {caller : Address} {now : U64}
    {target : Address}
    (performed : perform env audit.state (.call caller now (.claimRewards target)) =
      .ok next.state) (address : Address) :
    next.state.staking.position address = audit.state.staking.position address := by
  have effect := perform_effect blank performed address
  generalize next.state.staking.position address = position at effect
  cases effect with
  | untouched => rfl

theorem performAudited_within (blank : Blank audit.state.staking) (within : Within audit)
    (done : performAudited env audit input = .ok next) :
    Within next ↔ ClaimWithin audit input := by
  obtain ⟨performed, recorded⟩ := performAudited_ok done
  rw [Within]
  generalize next.payments = payments at recorded ⊢
  cases recorded with
  | quiet _ quiet =>
    refine iff_of_true (fun address => ?_) fun delegator address claims => ?_
    · exact (within address).trans (perform_effect blank performed address).rewards_le
    · rw [quiet] at claims
      cases claims
  | claimed caller now target reward exact _ record =>
    -- the books are as before, and only the record has grown
    have credited : ∀ address,
        (next.state.staking.validator address).rewardsAccumulated.toNat =
          (audit.state.staking.validator address).rewardsAccumulated.toNat := fun address =>
      congrArg Position.rewards (position_of_claim blank performed address)
    simp only [record, paidFor_record, credited]
    rw [reward_position] at exact
    constructor
    · intro after delegator address claims
      obtain ⟨rfl, rfl⟩ := Prod.mk.inj (Option.some.inj claims)
      have own := after target
      rw [if_pos rfl] at own
      omega
    · intro room address
      have own := room caller target rfl
      have others := within address
      split
      next same =>
        subst same
        omega
      · omega

/-! ## Claims made once -/

/-- The part of all rewards that goes with a delegation, out of what is delegated. -/
def Position.share (position : Position) (delegator : Address) : Nat :=
  Shares.portion (10 ^ 18) (position.delegations delegator) position.delegatedTo
    position.rewards

/-- Private stakes only lower what is paid. -/
theorem Position.Sound.reward_le_share {position : Position} (sound : position.Sound)
    (delegator : Address) : position.reward delegator ≤ position.share delegator := by
  have owned := sound.delegation_le delegator
  rw [Position.reward, Position.share]
  by_cases none : position.delegations delegator = 0
  · simp [none]
  · exact Shares.portion_anti _ _ _ (by omega) sound.counted

theorem Position.Sound.sum_share_le {position : Position} (sound : position.Sound)
    (delegators : Finset Address) :
    ∑ delegator ∈ delegators, position.share delegator ≤ position.rewards :=
  Shares.sum_portion_le position.delegations (10 ^ 18) position.delegatedTo position.rewards
    delegators (sound.delegated delegators)

/-- Nobody claims the rewards of a validator again, and once some are paid, delegations to
the validator stay as they are. -/
def ClaimedOnce (audit : Audit World) : Input World → Prop
  | .call caller _ (.claimRewards address) => caller ∉ claimants address audit.payments
  | .call _ _ (.stake address _) => claimants address audit.payments = ∅
  | .call _ _ (.unstake address _) => claimants address audit.payments = ∅
  | _ => True

/-- Each payment is within the share that the delegator has now. -/
structure Fair (audit : Audit World) : Prop where
  books : Books audit.state.staking
  once : PaidOnce audit.payments
  shares : ∀ payment ∈ audit.payments, payment.amount.toNat ≤
    (audit.state.staking.position payment.validator).share payment.delegator

theorem Fair.within (fair : Fair audit) : Within audit := by
  intro address
  have shares : ∀ payment ∈ audit.payments, payment.validator = address →
      payment.amount.toNat ≤ (audit.state.staking.position address).share payment.delegator := by
    rintro payment member rfl
    exact fair.shares payment member
  exact (paidFor_le_sum fair.once _ shares).trans ((fair.books.sound address).sum_share_le _)

/-- Where something was paid, shares only grow. -/
theorem share_le_of_paid (once : ClaimedOnce audit input) {payment : Payment}
    (member : payment ∈ audit.payments) {before after : Position}
    (effect : Effect payment.validator before input after) :
    before.share payment.delegator ≤ after.share payment.delegator := by
  have claimed : payment.delegator ∈ claimants payment.validator audit.payments :=
    mem_claimants.mpr ⟨payment, member, rfl, rfl⟩
  -- the share does not read the total that private stakes raise
  cases effect with
  | untouched => exact Nat.le_refl _
  | staked =>
    rw [(once : claimants payment.validator audit.payments = ∅)] at claimed
    cases claimed
  | privatelyStaked => exact Nat.le_refl _
  | unstaked =>
    rw [(once : claimants payment.validator audit.payments = ∅)] at claimed
    cases claimed
  | rewarded => exact Shares.portion_mono _ _ _ (Nat.le_add_right _ _)
  | slashed => exact Nat.le_refl _

theorem performAudited_fair (fair : Fair audit) (once : ClaimedOnce audit input)
    (done : performAudited env audit input = .ok next) : Fair next := by
  obtain ⟨performed, recorded⟩ := performAudited_ok done
  have kept : ∀ payment ∈ audit.payments, payment.amount.toNat ≤
      (next.state.staking.position payment.validator).share payment.delegator := by
    intro payment member
    have effect := perform_effect fair.books.blank performed payment.validator
    exact (fair.shares payment member).trans (share_le_of_paid once member effect)
  have books := perform_books fair.books performed
  suffices paid : PaidOnce next.payments ∧ ∀ payment ∈ next.payments, payment.amount.toNat ≤
      (next.state.staking.position payment.validator).share payment.delegator from
    ⟨books, paid.1, paid.2⟩
  generalize next.payments = payments at recorded ⊢
  cases recorded with
  | quiet => exact ⟨fair.once, kept⟩
  | claimed caller now target reward exact _ record =>
    rw [record]
    split
    · exact ⟨fair.once, kept⟩
    · constructor
      · refine List.pairwise_cons.mpr ⟨fun earlier member same paid => ?_, fair.once⟩
        exact once (mem_claimants.mpr ⟨earlier, member, same, paid⟩)
      · -- the total that divides it is at least what is delegated
        refine List.forall_mem_cons.mpr ⟨?_, kept⟩
        simp only [exact, position_of_claim fair.books.blank performed]
        exact (fair.books.sound target).reward_le_share caller

end Steps

/-- From the deployment on, what is paid of each validator is within what was credited in
every state of a run exactly if every claim that goes through asks for no more than is left.
Claims that each delegator makes once, with no delegation moving after the first of them,
are enough. -/
theorem within_iff {World : Type} (env : StakingEnv World)
    (deployer protonToken zkVerifier : Address) (world : World) (inputs : List (Input World)) :
    (Runs.Visits (auditedStep env) Within
        ⟨⟨ProtonStaking.new deployer protonToken zkVerifier, world⟩, []⟩ inputs ↔
      Runs.Meets (auditedStep env)
        (fun audit input => Transactions.Succeeds (performAudited env) audit input →
          ClaimWithin audit input)
        ⟨⟨ProtonStaking.new deployer protonToken zkVerifier, world⟩, []⟩ inputs) ∧
    (Runs.Meets (auditedStep env)
        (fun audit input => Transactions.Succeeds (performAudited env) audit input →
          ClaimedOnce audit input)
        ⟨⟨ProtonStaking.new deployer protonToken zkVerifier, world⟩, []⟩ inputs →
      Runs.Visits (auditedStep env) Within
        ⟨⟨ProtonStaking.new deployer protonToken zkVerifier, world⟩, []⟩ inputs) := by
  have books := books_new deployer protonToken zkVerifier
  constructor
  · let Kept (audit : Audit World) : Prop := Books audit.state.staking
    refine @Transactions.visits_iff_meets _ _ _ _ _ Kept (fun _ _ => True) _ ?_ ?_ _ ?_ books
      inputs ((Runs.meets_const _ (fun _ => True) _ inputs).mpr fun _ _ => trivial)
    · intro audit input next kept within _ done
      exact performAudited_within kept.blank within done
    · intro audit input next kept _ done
      exact perform_books kept (performAudited_ok done).1
    · exact fun _ => Nat.le_refl 0
  · intro claims
    have initial : Fair ⟨⟨ProtonStaking.new deployer protonToken zkVerifier, world⟩, []⟩ :=
      ⟨books, .nil, nofun⟩
    have visits := @Transactions.visits_of_keeps _ _ _ (performAudited env) Fair _ ?_ _ initial
      inputs claims
    · exact fun earlier later split => (visits earlier later split).within
    · intro audit input next fair once done
      exact performAudited_fair fair (once ⟨next, done⟩) done

namespace Sample

/-- Two delegators claim their halves of a credited commission. -/
def claimedOnce : List (Input Solidity.Sample.Ledger) :=
  opening ++
    [call 5 (.stake (Sample.address 4) (10000 * ether)),
      call 9 (.distributeRewards [Sample.address 4] [1000 * ether]),
      call 3 (.claimRewards (Sample.address 4)), call 5 (.claimRewards (Sample.address 4))]

/-- A commission of 50 is credited, and address 3 claims it twice. -/
def claimedTwice : List (Input Solidity.Sample.Ledger) :=
  opening ++
    [call 9 (.distributeRewards [Sample.address 4] [1000 * ether]),
      call 3 (.claimRewards (Sample.address 4)), call 3 (.claimRewards (Sample.address 4))]

end Sample

theorem within_sample :
    Runs.Visits (auditedStep Sample.env) Within ⟨Sample.deployed 0, []⟩ Sample.claimedOnce := by
  refine (within_iff Sample.env (Sample.address 9) (Sample.address 1) (Sample.address 7)
    (Sample.ledger 0) Sample.claimedOnce).2
    ⟨fun _ => trivial, fun _ => rfl, fun _ => ?_, fun _ => trivial, fun _ => ?_, fun _ => ?_,
      trivial⟩
  · change claimants _ _ = ∅
    decide +kernel
  · change _ ∉ claimants _ _
    decide +kernel
  · change _ ∉ claimants _ _
    decide +kernel

/-- The only delegator is paid 100 where 50 were credited. -/
theorem second_claim_is_paid_again :
    ¬ Runs.Visits (auditedStep Sample.env) Within ⟨Sample.deployed 0, []⟩
      Sample.claimedTwice := by
  intro visits
  have last := visits Sample.claimedTwice [] (List.append_nil _).symm (Sample.address 4)
  exact absurd last (by decide +kernel)

/-! ## All delegators of a validator -/

def quoted (staking : ProtonStaking) (delegator address : Address) : Nat :=
  match staking.calculateRewards delegator address with
  | .ok reward => reward.toNat
  | .error _ => 0

section Views
variable {staking : ProtonStaking} {address : Address}

theorem quoted_le_rewardOf (staking : ProtonStaking) (delegator address : Address) :
    staking.quoted delegator address ≤ staking.rewardOf delegator address := by
  rw [quoted]
  cases calculated : staking.calculateRewards delegator address with
  | ok reward => exact (calculateRewards_ok calculated).le
  | error fault => exact Nat.zero_le _

theorem sum_quoted_le (sound : (staking.position address).Sound) (delegators : Finset Address) :
    ∑ delegator ∈ delegators, staking.quoted delegator address ≤
      (staking.position address).rewards :=
  calc ∑ delegator ∈ delegators, staking.quoted delegator address
    _ ≤ ∑ delegator ∈ delegators, (staking.position address).share delegator :=
      Finset.sum_le_sum fun delegator _ =>
        (quoted_le_rewardOf staking delegator address).trans (sound.reward_le_share delegator)
    _ ≤ (staking.position address).rewards := sound.sum_share_le delegators

/-- Whoever delegates to a validator is counted in what it divides by. -/
theorem calculateRewards_avoids (sound : (staking.position address).Sound) (delegator : Address) :
    Avoids .divisionByZero (staking.calculateRewards delegator address) := by
  simp only [calculateRewards]
  split
  · exact avoids_ok _ _
  next some =>
    have owned : (staking.delegation delegator address).toNat ≤
        (staking.delegatedTo address).toNat := sound.delegation_le delegator
    have counted : (staking.delegatedTo address).toNat ≤
        (staking.validator address).totalDelegated.toNat := sound.counted
    have filled : (staking.delegation delegator address).toNat ≠ 0 :=
      fun zero => some (BitVec.eq_of_toNat_eq zero)
    apply (avoids_mulDiv _ _ (by omega)).bind
    intro share _
    exact avoids_mulDiv _ _ (by decide)

end Views

/-- In every state that is reached, what all delegators of a validator are quoted is together
no more than was accumulated for it, and no quote divides by zero. -/
theorem quotes_fit_rewards {World : Type} (env : StakingEnv World)
    (deployer protonToken zkVerifier : Address) (world : World) (inputs : List (Input World))
    (address : Address) :
    let reached := (Runs.run (step env)
      ⟨ProtonStaking.new deployer protonToken zkVerifier, world⟩ inputs).2.staking
    (∀ delegators : Finset Address, ∑ delegator ∈ delegators, reached.quoted delegator address ≤
        (reached.validator address).rewardsAccumulated.toNat) ∧
      ∀ delegator, Avoids .divisionByZero (reached.calculateRewards delegator address) := by
  have books := @Transactions.run_keeps _ _ _ (perform env) (fun state => Books state.staking)
    (fun _ _ _ books performed => perform_books books performed)
    ⟨ProtonStaking.new deployer protonToken zkVerifier, world⟩
    (books_new deployer protonToken zkVerifier) inputs
  exact ⟨sum_quoted_le (books.sound address), calculateRewards_avoids (books.sound address)⟩

end ProtonChain.Solidity.ProtonStaking
