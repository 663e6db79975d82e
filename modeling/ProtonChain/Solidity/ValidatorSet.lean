import ProtonChain.Library.Codec
import ProtonChain.Library.ExchangeSort
import ProtonChain.Solidity.StakingCalls

/-! The validators that the staking contract names for consensus.

They are copied into two arrays, addresses and stakes, which are sorted side by side and cut
off. The arrays hold every registered validator once, since a registration is refused where
the address is registered already.
-/

set_option autoImplicit false

namespace ProtonChain.Solidity.ProtonStaking

open Checked

/-! ## The two arrays -/

/-- `addrs` and `stakes`, each with a place for every validator. -/
structure Arrays (n : Nat) where
  addrs : Fin n → Address
  stakes : Fin n → U256

namespace Arrays
variable {n : Nat}

/-- Both arrays are exchanged where the later stake is larger. -/
def compare (i : Fin n) (arrays : Arrays n) (j : Fin n) : Arrays n :=
  if arrays.stakes i < arrays.stakes j then
    { stakes := arrays.stakes ∘ Equiv.swap i j
      addrs := arrays.addrs ∘ Equiv.swap i j }
  else arrays

/-- The loop over `j` from `i + 1` on. -/
def pass (arrays : Arrays n) (i : Fin n) : Arrays n :=
  ((List.finRange n).filter (i < ·)).foldl (compare i) arrays

def sort (arrays : Arrays n) : Arrays n := (List.finRange n).foldl pass arrays

/-- The arrays as one array of pairs. -/
def pairs (arrays : Arrays n) (i : Fin n) : Address × U256 := (arrays.addrs i, arrays.stakes i)

def weight (pair : Address × U256) : Nat := pair.2.toNat

theorem pairs_compare (i : Fin n) (arrays : Arrays n) (j : Fin n) :
    (arrays.compare i j).pairs = ExchangeSort.compare weight i arrays.pairs j := by
  rw [compare, ExchangeSort.compare]
  by_cases less : arrays.stakes i < arrays.stakes j
  · have lighter : weight (arrays.pairs i) < weight (arrays.pairs j) := BitVec.lt_def.mp less
    rw [if_pos less, if_pos lighter]
    rfl
  · have heavier : ¬ weight (arrays.pairs i) < weight (arrays.pairs j) :=
      mt BitVec.lt_def.mpr less
    rw [if_neg less, if_neg heavier]

theorem pairs_pass (arrays : Arrays n) (i : Fin n) :
    (arrays.pass i).pairs = ExchangeSort.pass weight arrays.pairs i :=
  (List.foldl_hom pairs fun arrays j => (pairs_compare i arrays j).symm).symm

theorem pairs_sort (arrays : Arrays n) :
    arrays.sort.pairs = ExchangeSort.sort weight arrays.pairs :=
  (List.foldl_hom pairs fun arrays i => (pairs_pass arrays i).symm).symm

end Arrays

/-! ## The view -/

/-- The first loop: the validators in the order of their registration. -/
def arrays (staking : ProtonStaking) : Arrays staking.validatorList.length where
  addrs i := staking.validatorList.get i
  stakes i := (staking.validator (staking.validatorList.get i)).stake

def getValidatorSet (staking : ProtonStaking) (count : U256) : List Address × List U256 :=
  let arrays := staking.arrays.sort
  let count := if count.toNat < staking.validatorList.length then count.toNat
    else staking.validatorList.length
  ((List.ofFn arrays.addrs).take count, (List.ofFn arrays.stakes).take count)

section View
variable (staking : ProtonStaking)

def stakeOf (address : Address) : U256 := (staking.validator address).stake

def ranked : List Address := List.ofFn staking.arrays.sort.addrs

/-- One rearrangement has moved both arrays. -/
theorem arrays_sort :
    ∃ places : Equiv.Perm (Fin staking.validatorList.length),
      (∀ i, staking.arrays.sort.addrs i = staking.validatorList.get (places i)) ∧
      ∀ i, staking.arrays.sort.stakes i =
        staking.stakeOf (staking.validatorList.get (places i)) := by
  obtain ⟨places, rearranged⟩ := ExchangeSort.sort_perm Arrays.weight staking.arrays.pairs
  rw [← Arrays.pairs_sort] at rearranged
  exact ⟨places, fun i => congrArg Prod.fst (congrFun rearranged i),
    fun i => congrArg Prod.snd (congrFun rearranged i)⟩

theorem ranked_perm : staking.ranked.Perm staking.validatorList := by
  obtain ⟨places, addrs, -⟩ := arrays_sort staking
  have same : staking.arrays.sort.addrs = staking.validatorList.get ∘ places := funext addrs
  rw [ranked, same]
  exact (places.ofFn_comp_perm _).trans (.of_eq (List.ofFn_get staking.validatorList))

theorem ranked_stakes :
    List.ofFn staking.arrays.sort.stakes = staking.ranked.map staking.stakeOf := by
  obtain ⟨places, addrs, stakes⟩ := arrays_sort staking
  rw [ranked, List.map_ofFn]
  congr 1
  funext i
  rw [stakes, Function.comp_apply, addrs]

theorem ranked_ordered : staking.ranked.Pairwise fun address other =>
    (staking.stakeOf other).toNat ≤ (staking.stakeOf address).toNat := by
  obtain ⟨places, addrs, stakes⟩ := arrays_sort staking
  have antitone := ExchangeSort.sort_antitone Arrays.weight staking.arrays.pairs
  rw [← Arrays.pairs_sort] at antitone
  rw [ranked, List.pairwise_ofFn]
  intro i j before
  rw [addrs, addrs, ← stakes, ← stakes]
  exact antitone before.le

theorem getValidatorSet_eq (count : U256) :
    staking.getValidatorSet count =
      (staking.ranked.take (min count.toNat staking.validatorList.length),
        (staking.ranked.take (min count.toNat staking.validatorList.length)).map
          staking.stakeOf) := by
  have cut : (if count.toNat < staking.validatorList.length then count.toNat
      else staking.validatorList.length) = min count.toNat staking.validatorList.length := by
    split <;> omega
  simp only [getValidatorSet, cut, ranked_stakes, List.map_take]
  rfl

/-- What the view promises for the books as they are. -/
structure TopStaked (count : U256) (addrs : List Address) (stakes : List U256) : Prop where
  length : addrs.length = min count.toNat staking.validatorList.length
  paired : stakes = addrs.map staking.stakeOf
  ordered : stakes.Pairwise fun stake later => later.toNat ≤ stake.toNat
  /-- No address stands there more often than in the list of validators. -/
  once : addrs.Subperm staking.validatorList
  topmost : ∀ address ∈ staking.validatorList, address ∉ addrs → ∀ stake ∈ stakes,
    (staking.stakeOf address).toNat ≤ stake.toNat

theorem getValidatorSet_topStaked (count : U256) :
    TopStaked staking count (staking.getValidatorSet count).1
      (staking.getValidatorSet count).2 := by
  have perm := ranked_perm staking
  have ordered := ranked_ordered staking
  rw [getValidatorSet_eq]
  refine ⟨?_, rfl, ?_, ?_, ?_⟩
  · rw [List.length_take, perm.length_eq, Nat.min_assoc, Nat.min_self]
  · exact List.pairwise_map.mpr (ordered.sublist (List.take_sublist _ _))
  · exact (List.take_sublist _ _).subperm.trans perm.subperm
  · intro address registered left stake member
    obtain ⟨taken, first, rfl⟩ := List.mem_map.mp member
    -- who is left out stands behind everyone who is not
    have ranked := perm.mem_iff.mpr registered
    rw [← List.take_append_drop (min count.toNat staking.validatorList.length) staking.ranked]
      at ranked ordered
    have behind := (List.mem_append.mp ranked).resolve_left left
    exact (List.pairwise_append.mp ordered).2.2 taken first address behind

end View

/-! ## The list of validators -/

section Lists
variable {World : Type} {env : StakingEnv World} {state next : State World} {input : Input World}

def Input.registrant : Input World → Option Address
  | .call caller _ (.registerValidator _) => some caller
  | _ => none

theorem perform_registrant (performed : perform env state input = .ok next) :
    (input.registrant = none ∧ next.staking.validatorList = state.staking.validatorList ∧
      next.staking.isValidator = state.staking.isValidator) ∨
    ∃ caller, input.registrant = some caller ∧ caller ∉ state.staking.isValidator ∧
      next.staking.validatorList = state.staking.validatorList ++ [caller] ∧
      next.staking.isValidator = insert caller state.staking.isValidator ∧
      (next.staking.validator caller).isActive = false := by
  cases input with
  | outside world owner =>
    obtain rfl := Except.ok.inj performed
    exact .inl ⟨rfl, rfl, rfl⟩
  | call caller now call =>
    cases call with
    | registerValidator commission =>
      obtain ⟨absent, record, -, -, -, inactive, rfl⟩ := registerValidator_ok performed
      refine .inr ⟨caller, rfl, absent, rfl, rfl, ?_⟩
      change ((state.staking.setValidator caller record).validator caller).isActive = false
      rw [validator_setValidator, if_pos rfl, inactive]
    | stake target amount =>
      obtain ⟨-, -, delegation, total, record, -, -, -, -, -, -, books⟩ := stake_ok performed
      rw [books]
      exact .inl ⟨rfl, rfl, rfl⟩
    | privateStake target encryptedAmount commitment nullifier zkProof =>
      obtain ⟨-, -, record, nullifiers, encrypted, -, -, -, -, books⟩ := privateStake_ok performed
      rw [books]
      exact .inl ⟨rfl, rfl, rfl⟩
    | unstake target amount =>
      obtain ⟨-, -, delegation, total, record, unlockHeight, -, -, -, -, -, -, -, books⟩ :=
        unstake_ok performed
      rw [books]
      exact .inl ⟨rfl, rfl, rfl⟩
    | distributeRewards validators rewards =>
      obtain ⟨-, ⟨records, epoch, books⟩, -⟩ := distributeRewards_ok performed
      rw [books]
      exact .inl ⟨rfl, rfl, rfl⟩
    | slashValidator target percentage =>
      obtain ⟨-, -, record, -, -, -, -, books⟩ := slashValidator_ok performed
      rw [books]
      exact .inl ⟨rfl, rfl, rfl⟩
    | _ =>
      obtain ⟨owner, queue, zkVerifier, -, books⟩ := perform_aside rfl performed
      rw [books]
      exact .inl ⟨rfl, rfl, rfl⟩

/-- The list holds the registered validators, each once. -/
structure Listed (staking : ProtonStaking) : Prop where
  distinct : staking.validatorList.Nodup
  mem_iff : ∀ address, address ∈ staking.validatorList ↔ address ∈ staking.isValidator

/-- There are no more validators than addresses, so their number fits a word. -/
theorem Listed.length_lt {staking : ProtonStaking} (lists : Listed staking) :
    staking.validatorList.length < 2 ^ 256 := by
  -- an address is read as a number of twenty digits
  let code (address : Address) : Nat := Codec.ofBytes address.asBytes.toList
  have injective : Function.Injective code := by
    intro first second same
    exact Address.eq_of_bytes (Codec.eq_of_ofBytes_eq (by simp) same)
  have within : (staking.validatorList.map code).toFinset ⊆ Finset.range (256 ^ 20) := by
    intro number member
    obtain ⟨address, -, rfl⟩ := List.mem_map.mp (List.mem_toFinset.mp member)
    have bound := Codec.ofBytes_lt address.asBytes.toList
    rw [address.asBytes.toList_length] at bound
    exact Finset.mem_range.mpr bound
  have count := Finset.card_le_card within
  rw [List.toFinset_card_of_nodup (lists.distinct.map injective), List.length_map,
    Finset.card_range] at count
  exact count.trans_lt (by decide)

theorem listed_new (deployer protonToken zkVerifier : Address) :
    Listed (ProtonStaking.new deployer protonToken zkVerifier) where
  distinct := List.nodup_nil
  mem_iff address := iff_of_false List.not_mem_nil (Finset.notMem_empty address)

theorem perform_listed (lists : Listed state.staking)
    (performed : perform env state input = .ok next) : Listed next.staking := by
  rcases perform_registrant performed with ⟨-, list, set⟩ | ⟨caller, -, absent, list, set, -⟩
  · exact ⟨list ▸ lists.distinct, fun address => by rw [list, set, lists.mem_iff]⟩
  · refine ⟨?_, fun address => ?_⟩
    · rw [list, List.nodup_append_comm, List.singleton_append, List.nodup_cons, lists.mem_iff]
      exact ⟨absent, lists.distinct⟩
    · rw [list, set, List.mem_append, List.mem_singleton, Finset.mem_insert, lists.mem_iff, or_comm]

theorem run_listed (env : StakingEnv World) (deployer protonToken zkVerifier : Address)
    (world : World) (inputs : List (Input World)) :
    Listed (Runs.run (step env)
      ⟨ProtonStaking.new deployer protonToken zkVerifier, world⟩ inputs).2.staking := by
  refine @Transactions.run_keeps _ _ _ (perform env) (fun state => Listed state.staking) ?_
    ⟨ProtonStaking.new deployer protonToken zkVerifier, world⟩ ?_ inputs
  · intro state input next lists performed
    exact perform_listed lists performed
  · exact listed_new deployer protonToken zkVerifier

end Lists

/-- For all books and counts the view names that many validators of largest stake, with their
stakes and in their order; in every state that is reached no validator stands there twice. -/
theorem getValidatorSet_names_largest :
    (∀ (staking : ProtonStaking) (count : U256),
      TopStaked staking count (staking.getValidatorSet count).1 (staking.getValidatorSet count).2) ∧
    ∀ {World : Type} (env : StakingEnv World) (deployer protonToken zkVerifier : Address)
      (world : World) (inputs : List (Input World)) (count : U256),
      ((Runs.run (step env) ⟨ProtonStaking.new deployer protonToken zkVerifier, world⟩
        inputs).2.staking.getValidatorSet count).1.Nodup := by
  refine ⟨getValidatorSet_topStaked, ?_⟩
  intro World env deployer protonToken zkVerifier world inputs count
  have lists := run_listed env deployer protonToken zkVerifier world inputs
  rw [getValidatorSet_eq]
  exact ((ranked_perm _).nodup_iff.mpr lists.distinct).sublist (List.take_sublist _ _)

end ProtonChain.Solidity.ProtonStaking
