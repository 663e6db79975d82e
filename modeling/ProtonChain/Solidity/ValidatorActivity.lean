import ProtonChain.Solidity.ValidatorSet

/-! Which of the validators named for consensus are active.

The view ranks all registered validators by their stake and does not ask whether they are
active. A validator is inactive from its registration until it is funded, after a slash, and
after a withdrawal below the minimum.
-/

set_option autoImplicit false

namespace ProtonChain.Solidity.ProtonStaking

open Checked

/-! ## One state -/

def ActiveSet (staking : ProtonStaking) (count : U256) : Prop :=
  ∀ address ∈ (staking.getValidatorSet count).1, (staking.validator address).isActive = true

def AllActive (staking : ProtonStaking) : Prop :=
  ∀ address ∈ staking.isValidator, (staking.validator address).isActive = true

/-- The active validators with more stake than every inactive one. -/
def ahead (staking : ProtonStaking) : Finset Address :=
  staking.isValidator.filter fun address => (staking.validator address).isActive = true ∧
    ∀ other ∈ staking.isValidator, (staking.validator other).isActive = false →
      (staking.stakeOf other).toNat < (staking.stakeOf address).toNat

/-- The active validators with no less stake than any inactive one. -/
def abreast (staking : ProtonStaking) : Finset Address :=
  staking.isValidator.filter fun address => (staking.validator address).isActive = true ∧
    ∀ other ∈ staking.isValidator, (staking.validator other).isActive = false →
      (staking.stakeOf other).toNat ≤ (staking.stakeOf address).toNat

section State
variable {staking : ProtonStaking} {count : U256}

theorem mem_getValidatorSet {address : Address}
    (named : address ∈ (staking.getValidatorSet count).1) :
    address ∈ staking.validatorList := by
  rw [getValidatorSet_eq] at named
  exact (ranked_perm staking).mem_iff.mp (List.mem_of_mem_take named)

/-- The largest count names everyone. -/
theorem activeSets_iff (lists : Listed staking) :
    (∀ count, ActiveSet staking count) ↔ AllActive staking := by
  constructor
  · intro active address registered
    apply active (BitVec.allOnes 256)
    have bound := lists.length_lt
    rw [getValidatorSet_eq, BitVec.toNat_allOnes, Nat.min_eq_right (by omega),
      ← (ranked_perm staking).length_eq, List.take_length, (ranked_perm staking).mem_iff,
      lists.mem_iff]
    exact registered
  · intro active count address named
    exact active address ((lists.mem_iff address).mp (mem_getValidatorSet named))

/-- No inactive validator is named where enough active ones are ahead of it. -/
theorem activeSet_of_ahead (lists : Listed staking) (enough : count.toNat ≤ staking.ahead.card) :
    ActiveSet staking count := by
  intro address named
  have registered := (lists.mem_iff address).mp (mem_getValidatorSet named)
  have ordered := ranked_ordered staking
  rw [getValidatorSet_eq] at named
  obtain ⟨before, after, place⟩ := List.append_of_mem named
  have ranked : staking.ranked = before ++ address :: (after ++ staking.ranked.drop
      (min count.toNat staking.validatorList.length)) := by
    rw [← List.cons_append, ← List.append_assoc, ← place, List.take_append_drop]
  have short : before.length < count.toNat := by
    have lengths := congrArg List.length place
    rw [List.length_take, List.length_append, List.length_cons] at lengths
    omega
  rw [ranked] at ordered
  obtain ⟨-, behind, -⟩ := List.pairwise_append.mp ordered
  by_contra inactive
  rw [Bool.not_eq_true] at inactive
  -- everyone who is ahead stands before the first inactive place
  have first : staking.ahead ⊆ before.toFinset := by
    intro other member
    obtain ⟨present, active, above⟩ := Finset.mem_filter.mp member
    have more := above address registered inactive
    have somewhere := (ranked_perm staking).mem_iff.mpr ((lists.mem_iff other).mpr present)
    rw [ranked, List.mem_append, List.mem_cons] at somewhere
    rcases somewhere with early | rfl | late
    · exact List.mem_toFinset.mpr early
    · exact absurd active (by rw [inactive]; decide)
    · exact absurd ((List.pairwise_cons.mp behind).1 other late) (Nat.not_le.mpr more)
  have few := (Finset.card_le_card first).trans (List.toFinset_card_le before)
  omega

/-- Where only active validators are named, none of them has less stake than an inactive one. -/
theorem card_le_of_activeSet (lists : Listed staking) (active : ActiveSet staking count) :
    min count.toNat staking.validatorList.length ≤ staking.abreast.card := by
  have perm := ranked_perm staking
  have ordered := ranked_ordered staking
  rw [ActiveSet, getValidatorSet_eq] at active
  have named : (staking.ranked.take (min count.toNat staking.validatorList.length)).toFinset ⊆
      staking.abreast := by
    intro address member
    have taken := List.mem_toFinset.mp member
    have present := (lists.mem_iff address).mp (perm.mem_iff.mp (List.mem_of_mem_take taken))
    refine Finset.mem_filter.mpr ⟨present, active address taken, ?_⟩
    intro other registered inactive
    have somewhere := perm.mem_iff.mpr ((lists.mem_iff other).mpr registered)
    rw [← List.take_append_drop (min count.toNat staking.validatorList.length) staking.ranked]
      at somewhere ordered
    rcases List.mem_append.mp somewhere with early | late
    · exact absurd (active other early) (by rw [inactive]; decide)
    · exact (List.pairwise_append.mp ordered).2.2 address taken other late
  -- nobody is named twice, so there are as many of them as places
  have distinct := (perm.nodup_iff.mpr lists.distinct).sublist
    (List.take_sublist (min count.toNat staking.validatorList.length) staking.ranked)
  have size := Finset.card_le_card named
  rwa [List.toFinset_card_of_nodup distinct, List.length_take, perm.length_eq, Nat.min_assoc,
    Nat.min_self] at size

end State

/-! ## Steps -/

section Steps
variable {World : Type} {env : StakingEnv World} {caller : Address} {state next : State World}
  {input : Input World}

/-- The calls that leave a registered validator inactive: a registration, a slash, and a
withdrawal that leaves less than the minimum. -/
def Deactivates (state : State World) : Input World → Prop
  | .call _ _ (.registerValidator _) => True
  | .call _ _ (.slashValidator _ _) => True
  | .call _ _ (.unstake address amount) =>
    (state.staking.stakeOf address).toNat < state.staking.minStake.toNat + amount.toNat
  | _ => False

theorem AllActive.setValidator {staking : ProtonStaking} (active : AllActive staking)
    {target : Address} {record : Validator} (now : record.isActive = true) :
    AllActive (staking.setValidator target record) := by
  intro address registered
  rw [validator_setValidator]
  split
  · exact now
  · exact active address registered

theorem not_allActive (staking : ProtonStaking) {target : Address} {record : Validator}
    (present : target ∈ staking.isValidator) (inactive : record.isActive = false) :
    ¬ AllActive (staking.setValidator target record) := by
  intro active
  have now := active target present
  rw [validator_setValidator, if_pos rfl, inactive] at now
  cases now

theorem stake_allActive {target : Address} {amount : U256} (active : AllActive state.staking)
    (done : stake env caller state target amount = .ok next) : AllActive next.staking := by
  obtain ⟨present, -, delegation, total, record, -, -, -, -, -, flag, books⟩ := stake_ok done
  have before : AllActive (state.staking.setDelegation caller target delegation total) := active
  rw [books]
  apply before.setValidator
  rw [flag, active target present, ite_self]

theorem privateStake_allActive {target : Address} {encryptedAmount commitment nullifier : Hash}
    {zkProof : Bytes} (active : AllActive state.staking)
    (done : privateStake env caller state target encryptedAmount commitment nullifier zkProof =
      .ok next) : AllActive next.staking := by
  obtain ⟨-, -, record, nullifiers, encrypted, -, -, -, flag, books⟩ := privateStake_ok done
  rw [books]
  exact active.setValidator flag

theorem unstake_allActive_iff {now : U64} {target : Address} {amount : U256}
    (active : AllActive state.staking)
    (done : unstake caller state now target amount = .ok next) :
    AllActive next.staking ↔
      ¬ (state.staking.stakeOf target).toNat < state.staking.minStake.toNat + amount.toNat := by
  obtain ⟨present, -, delegation, total, record, unlockHeight, -, -, left, -, -, flag, -, books⟩ :=
    unstake_ok done
  have short : record.stake < state.staking.minStake ↔
      (state.staking.stakeOf target).toNat < state.staking.minStake.toNat + amount.toNat := by
    rw [BitVec.lt_def, stakeOf, ← left]
    omega
  rw [← short, books]
  constructor
  · intro active' less
    rw [if_pos less] at flag
    exact not_allActive (state.staking.setDelegation caller target delegation total) present flag
      active'
  · intro enough
    have before : AllActive (state.staking.setDelegation caller target delegation total) := active
    rw [if_neg enough, active target present] at flag
    exact before.setValidator flag

theorem perform_allActive_iff (active : AllActive state.staking)
    (performed : perform env state input = .ok next) :
    AllActive next.staking ↔ ¬ Deactivates state input := by
  cases input with
  | outside world owner =>
    obtain rfl := Except.ok.inj performed
    exact iff_of_true active id
  | call caller now call =>
    cases call with
    | registerValidator commission =>
      obtain ⟨-, record, -, -, -, inactive, rfl⟩ := registerValidator_ok performed
      refine iff_of_false (fun active' => ?_) fun kept => kept trivial
      have registered := active' caller (Finset.mem_insert_self caller _)
      change ((state.staking.setValidator caller record).validator caller).isActive = true
        at registered
      rw [validator_setValidator, if_pos rfl, inactive] at registered
      cases registered
    | stake target amount => exact iff_of_true (stake_allActive active performed) id
    | privateStake target encryptedAmount commitment nullifier zkProof =>
      exact iff_of_true (privateStake_allActive active performed) id
    | unstake target amount => exact unstake_allActive_iff active performed
    | distributeRewards validators rewards =>
      obtain ⟨-, ⟨records, epoch, books⟩, credited⟩ := distributeRewards_ok performed
      refine iff_of_true (fun address registered => ?_) id
      obtain ⟨commission, credited⟩ := credited address
      rw [credited.active]
      apply active address
      rw [books] at registered
      exact registered
    | slashValidator target percentage =>
      obtain ⟨present, -, record, -, -, -, flag, books⟩ := slashValidator_ok performed
      rw [books]
      exact iff_of_false (not_allActive state.staking present flag) fun kept => kept trivial
    | _ =>
      obtain ⟨owner, queue, zkVerifier, -, books⟩ := perform_aside rfl performed
      rw [books]
      exact iff_of_true active id

end Steps

/-! ## Runs -/

section Runs
variable {World : Type} (env : StakingEnv World)

/-- Every set that the contract names is active in all states of a run exactly where it is in
the first and no step of the run deactivates a validator. -/
theorem visits_activeSets_iff {start : State World} (lists : Listed start.staking)
    (active : ∀ count, ActiveSet start.staking count) (inputs : List (Input World)) :
    Runs.Visits (step env) (fun state => ∀ count, ActiveSet state.staking count) start inputs ↔
      Runs.Meets (step env)
        (fun state input => Transactions.Succeeds (perform env) state input →
          ¬ Deactivates state input) start inputs := by
  refine @Transactions.visits_iff_meets _ _ _ _ _ (fun state => Listed state.staking)
    (fun _ _ => True) _ ?_ ?_ start active lists inputs
    ((Runs.meets_const _ (fun _ => True) _ inputs).mpr fun _ _ => trivial)
  · intro state input next lists active _ performed
    rw [activeSets_iff (perform_listed lists performed)]
    exact perform_allActive_iff ((activeSets_iff lists).mp active) performed
  · intro state input next lists _ performed
    exact perform_listed lists performed

end Runs

/-- In every state that is reached, the sets named by the contract are active for all counts
exactly where every registered validator is; a set is active if its count is no more than
there are active validators ahead of all inactive ones, and only if it is no more than there
are such validators abreast of them. From a state where all are active they stay so exactly
as long as no call that deactivates a validator goes through. -/
theorem validatorSet_active_iff {World : Type} (env : StakingEnv World)
    (deployer protonToken zkVerifier : Address) (world : World) (prior : List (Input World)) :
    let reached := (Runs.run (step env)
      ⟨ProtonStaking.new deployer protonToken zkVerifier, world⟩ prior).2
    ((∀ count, ActiveSet reached.staking count) ↔ AllActive reached.staking) ∧
      (∀ count : U256, count.toNat ≤ reached.staking.ahead.card →
        ActiveSet reached.staking count) ∧
      (∀ count : U256, ActiveSet reached.staking count →
        min count.toNat reached.staking.validatorList.length ≤ reached.staking.abreast.card) ∧
      (AllActive reached.staking → ∀ inputs : List (Input World),
        (Runs.Visits (step env) (fun state => ∀ count, ActiveSet state.staking count) reached
            inputs ↔
          Runs.Meets (step env)
            (fun state input => Transactions.Succeeds (perform env) state input →
              ¬ Deactivates state input) reached inputs)) := by
  intro reached
  have lists : Listed reached.staking :=
    run_listed env deployer protonToken zkVerifier world prior
  refine ⟨activeSets_iff lists, fun count => activeSet_of_ahead lists, fun count =>
    card_le_of_activeSet lists, fun active inputs => ?_⟩
  exact visits_activeSets_iff env lists ((activeSets_iff lists).mpr active) inputs

namespace Sample

/-- Address 4 registers and is funded; the owner slashes it by a tenth. -/
def slashed : List (Input Solidity.Sample.Ledger) :=
  opening ++ [call 9 (.slashValidator (Sample.address 4) 1000)]

end Sample

theorem validatorSet_active_sample :
    ActiveSet (Runs.run (step Sample.env) (Sample.deployed 0) Sample.opening).2.staking 1 ∧
      (Runs.Visits (step Sample.env) (fun state => ∀ count, ActiveSet state.staking count)
          (Runs.run (step Sample.env) (Sample.deployed 0) Sample.opening).2
          [Sample.call 5 (.stake (Sample.address 4) 1)] ↔
        Runs.Meets (step Sample.env)
          (fun state input => Transactions.Succeeds (perform Sample.env) state input →
            ¬ Deactivates state input)
          (Runs.run (step Sample.env) (Sample.deployed 0) Sample.opening).2
          [Sample.call 5 (.stake (Sample.address 4) 1)]) := by
  have known := validatorSet_active_iff Sample.env (Sample.address 9) (Sample.address 1)
    (Sample.address 7) (Sample.ledger 0) Sample.opening
  exact ⟨known.2.1 1 (by decide +kernel), known.2.2.2 (by unfold AllActive; decide +kernel) _⟩

/-- The slashed validator keeps most of its stake and its place in the set. -/
theorem slashed_validator_is_named :
    ((Runs.run (step Sample.env) (Sample.deployed 0) Sample.slashed).2.staking.getValidatorSet
        1).1 = [Sample.address 4] ∧
      ((Runs.run (step Sample.env) (Sample.deployed 0) Sample.slashed).2.staking.validator
        (Sample.address 4)).isActive = false := by
  decide +kernel

end ProtonChain.Solidity.ProtonStaking
