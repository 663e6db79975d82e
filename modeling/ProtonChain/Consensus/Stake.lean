import ProtonChain.Consensus.Quorum
import ProtonChain.Library.Runs

/-! The stake counter.

The counter adds the stake of every validator that is added, the map replaces
the entry under its address. The two part where an entry with stake is replaced.
-/

set_option autoImplicit false

namespace ProtonChain.Consensus

/-! ## Sets built by adding validators -/

def built (vs : List Validator) : ValidatorSet :=
  vs.foldl ValidatorSet.addValidator ValidatorSet.new

def stakeSum (vs : List Validator) : Nat := (vs.map fun validator => validator.stake.toNat).sum

namespace ValidatorSet

def storedStake (set : ValidatorSet) : Nat :=
  FiniteMap.total (fun validator : Validator => validator.stake.toNat) set.validators

def Tracks (set : ValidatorSet) : Prop := set.totalStake.toNat = set.storedStake

theorem new_tracks : new.Tracks := rfl

theorem addValidator_mem (set : ValidatorSet) (validator : Validator) (address : Address) :
    address ∈ (set.addValidator validator).validators ↔
      address = validator.address ∨ address ∈ set.validators :=
  Finmap.mem_insert

end ValidatorSet

/-! ## One addition -/

/-- Nothing staked is stored under the address, and the sum stays within its word. -/
def AddsStake (set : ValidatorSet) (validator : Validator) : Prop :=
  stakeOf set validator.address = 0 ∧ set.storedStake + validator.stake.toNat < 2 ^ 128

instance (set : ValidatorSet) : DecidablePred (AddsStake set) := fun validator =>
  inferInstanceAs (Decidable (stakeOf set validator.address = 0 ∧
    set.storedStake + validator.stake.toNat < 2 ^ 128))

section Counter
variable (set : ValidatorSet) (validator : Validator)

theorem replaced_storedStake :
    (set.addValidator validator).storedStake + stakeOf set validator.address =
      set.storedStake + validator.stake.toNat :=
  FiniteMap.total_insert _ _ _ _

theorem stakeOf_lt (address : Address) : stakeOf set address < 2 ^ 128 := by
  rw [stakeOf, FiniteMap.weightAt]
  cases set.validators.lookup address with
  | none => exact Nat.two_pow_pos 128
  | some stored => exact stored.stake.isLt

theorem addValidator_tracks_iff (tracks : set.Tracks) :
    (set.addValidator validator).Tracks ↔ AddsStake set validator := by
  have stored := replaced_storedStake set validator
  have old := stakeOf_lt set validator.address
  have counter : (set.addValidator validator).totalStake.toNat =
      (set.storedStake + validator.stake.toNat) % 2 ^ 128 := by
    rw [← tracks]
    exact BitVec.toNat_add _ _
  have below := (set.addValidator validator).totalStake.isLt
  have width := validator.stake.isLt
  have total := set.totalStake.isLt
  rw [tracks] at total
  rw [ValidatorSet.Tracks, AddsStake, counter]
  -- a sum that wraps loses the whole word, which no replaced stake makes up for
  omega

end Counter

theorem stakeOf_fresh {set : ValidatorSet} {address : Address}
    (fresh : address ∉ set.validators) : stakeOf set address = 0 :=
  FiniteMap.weightAt_of_missing _ _ (Finmap.lookup_eq_none.mpr fresh)

theorem ValidatorSet.foldl_addValidator (vs : List Validator) (set : ValidatorSet)
    (tracks : set.Tracks) (distinct : (vs.map Validator.address).Nodup)
    (fresh : ∀ validator ∈ vs, validator.address ∉ set.validators)
    (fits : set.storedStake + stakeSum vs < 2 ^ 128) :
    (vs.foldl addValidator set).Tracks ∧
      (vs.foldl addValidator set).storedStake = set.storedStake + stakeSum vs := by
  induction vs generalizing set with
  | nil => exact ⟨tracks, rfl⟩
  | cons validator rest ih =>
    obtain ⟨apart, distinct⟩ := List.nodup_cons.mp distinct
    have new := stakeOf_fresh (fresh validator List.mem_cons_self)
    have sum : stakeSum (validator :: rest) = validator.stake.toNat + stakeSum rest := rfl
    have stored := replaced_storedStake set validator
    rw [new, Nat.add_zero] at stored
    -- fresh for the whole list is fresh for the rest after the first insertion
    have later : ∀ other ∈ rest, other.address ∉ (set.addValidator validator).validators := by
      intro other member listed
      rcases (addValidator_mem set validator other.address).mp listed with same | old
      · exact apart (same ▸ List.mem_map_of_mem member)
      · exact fresh other (List.mem_cons_of_mem _ member) old
    obtain ⟨tracked, total⟩ := ih (set.addValidator validator)
      ((addValidator_tracks_iff set validator tracks).mpr ⟨new, by omega⟩) distinct later
      (by omega)
    exact ⟨tracked, by rw [List.foldl_cons, total, stored, sum, Nat.add_assoc]⟩

/-! ## Runs of additions -/

def addCall (set : ValidatorSet) (validator : Validator) : Unit × ValidatorSet :=
  ((), set.addValidator validator)

/-- Along a run of additions the counter is the sum of the stakes in the set exactly if
no entry with stake is replaced and the sum stays within its word. -/
theorem totalStake_iff (validators : List Validator) :
    Runs.Visits addCall ValidatorSet.Tracks ValidatorSet.new validators ↔
      Runs.Meets addCall AddsStake ValidatorSet.new validators :=
  Runs.visits_iff_meets_of_exact _
    (fun set validator tracks => addValidator_tracks_iff set validator tracks)
    ValidatorSet.new_tracks validators

/-- The stake of a validator is changed from 5 to 7, and the total becomes 12. -/
theorem updated_stake_counted_twice :
    let updates := [Sample.validator 1 5, Sample.validator 1 7]
    let set := (Runs.run addCall ValidatorSet.new updates).2
    set.totalStake = 12 ∧ set.storedStake = 7 ∧
      ¬ Runs.Visits addCall ValidatorSet.Tracks ValidatorSet.new updates := by
  refine ⟨by decide, by decide, fun visits => ?_⟩
  have tracks := visits _ [] (List.append_nil _).symm
  exact absurd tracks (by unfold ValidatorSet.Tracks; decide)

end ProtonChain.Consensus
