import ProtonChain.Consensus.Stake

/-! Quorum intersection.

Two certificates overlap in what their weights exceed the total by. The
threshold does not force this above a third, and for weights that do not force
it themselves four validators suffice to miss it.
-/

set_option autoImplicit false

namespace ProtonChain.Consensus

/-! ## The stake of a set built from distinct validators -/

section Built
variable {vs : List Validator} (distinct : (vs.map Validator.address).Nodup)
  (fits : stakeSum vs < 2 ^ 128)
include distinct fits

theorem built_stake : (built vs).totalStake.toNat = stakeSum vs ∧
    (built vs).storedStake = stakeSum vs := by
  have start : ValidatorSet.new.storedStake = 0 := rfl
  obtain ⟨tracks, stored⟩ := ValidatorSet.foldl_addValidator vs ValidatorSet.new
    ValidatorSet.new_tracks distinct (fun _ _ => Finmap.notMem_empty) (by omega)
  rw [start, Nat.zero_add] at stored
  exact ⟨tracks.trans stored, stored⟩

theorem stakeSum_eq_sum_keys :
    stakeSum vs = ∑ address ∈ (built vs).validators.keys, stakeOf (built vs) address := by
  rw [← (built_stake distinct fits).2]
  exact FiniteMap.total_eq_sum_keys _ _

end Built

theorem built_threshold {vs : List Validator} (distinct : (vs.map Validator.address).Nodup)
    (fits : stakeSum vs * 2 < 2 ^ 128) :
    (QuorumCertificate.threshold (built vs)).toNat = stakeSum vs * 2 / 3 := by
  have stake := (built_stake distinct (by omega)).1
  rw [QuorumCertificate.threshold, BitVec.toNat_udiv, BitVec.toNat_mul, stake]
  exact congrArg (· / 3) (Nat.mod_eq_of_lt fits)

theorem signers_subset (secp : Secp256k1) (set : ValidatorSet) (qc : QuorumCertificate) :
    signers secp set qc ⊆ set.validators.keys := by
  intro address member
  obtain ⟨entry, listed, rfl⟩ := List.mem_map.mp (List.mem_toFinset.mp member)
  have valid := (List.mem_filter.mp listed).2
  rw [validEntry, ValidatorSet.getValidator] at valid
  rw [Finmap.mem_keys]
  cases found : set.validators.lookup entry.1 with
  | none => simp [found] at valid
  | some validator => exact Finmap.mem_of_lookup_eq_some found

theorem validSigners_nodup (secp : Secp256k1) (set : ValidatorSet) (qc : QuorumCertificate)
    (once : (qc.signatures.map Prod.fst).Nodup) : (validSigners secp set qc).Nodup :=
  once.sublist (List.filter_sublist.map _)

/-! ## Conflicting certificates -/

/-- Two accepted certificates for different blocks over one set of validators,
with the total stake and the two signing weights. -/
structure Conflicting (total firstWeight secondWeight : Nat) (secp : Secp256k1)
    (vs : List Validator) (first second : QuorumCertificate) : Prop where
  distinct : (vs.map Validator.address).Nodup
  sum : stakeSum vs = total
  firstOnce : (first.signatures.map Prod.fst).Nodup
  secondOnce : (second.signatures.map Prod.fst).Nodup
  firstWeighs : distinctStake secp (built vs) first = firstWeight
  secondWeighs : distinctStake secp (built vs) second = secondWeight
  firstVerified : first.verify secp (built vs) = true
  secondVerified : second.verify secp (built vs) = true
  blocks : first.blockHash ≠ second.blockHash

def commonStake (secp : Secp256k1) (set : ValidatorSet) (first second : QuorumCertificate) :
    Nat :=
  ∑ address ∈ signers secp set first ∩ signers secp set second, stakeOf set address

/-- All conflicting certificates of these weights share more than a third of the stake. -/
def Intersect (total firstWeight secondWeight : Nat) : Prop :=
  ∀ secp vs first second, Conflicting total firstWeight secondWeight secp vs first second →
    total < 3 * commonStake secp (built vs) first second

/-- The weights an accepted certificate can have. -/
def Attainable (total weight : Nat) : Prop := total * 2 / 3 ≤ weight ∧ weight ≤ total

section Bound
variable {total firstWeight secondWeight : Nat} {secp : Secp256k1} {vs : List Validator}
  {first second : QuorumCertificate}

theorem verified_attainable (qc : QuorumCertificate) {weight : Nat}
    (distinct : (vs.map Validator.address).Nodup) (fits : stakeSum vs * 2 < 2 ^ 128)
    (once : (qc.signatures.map Prod.fst).Nodup)
    (weighs : distinctStake secp (built vs) qc = weight)
    (verified : qc.verify secp (built vs) = true) : Attainable (stakeSum vs) weight := by
  have inside : distinctStake secp (built vs) qc ≤ stakeSum vs := by
    rw [stakeSum_eq_sum_keys distinct (by omega)]
    exact Finset.sum_le_sum_of_subset (signers_subset secp _ qc)
  have single := repeatedStake_of_nodup secp (built vs) qc
    (validSigners_nodup secp _ qc once)
  have reached := (verify_iff secp (built vs) qc (by omega)).mp verified
  rw [built_threshold distinct fits] at reached
  exact ⟨by omega, by omega⟩

theorem Conflicting.attainable
    (pair : Conflicting total firstWeight secondWeight secp vs first second)
    (fits : total * 2 < 2 ^ 128) :
    Attainable total firstWeight ∧ Attainable total secondWeight := by
  have total_eq := pair.sum
  subst total_eq
  exact ⟨verified_attainable first pair.distinct fits pair.firstOnce pair.firstWeighs
      pair.firstVerified,
    verified_attainable second pair.distinct fits pair.secondOnce pair.secondWeighs
      pair.secondVerified⟩

theorem Conflicting.common_large
    (pair : Conflicting total firstWeight secondWeight secp vs first second)
    (fits : total * 2 < 2 ^ 128) (large : 4 * total < 3 * (firstWeight + secondWeight)) :
    total < 3 * commonStake secp (built vs) first second := by
  have sum := stakeSum_eq_sum_keys pair.distinct (by have := pair.sum; omega)
  rw [pair.sum] at sum
  rw [sum, ← pair.firstWeighs, ← pair.secondWeighs] at large
  rw [sum]
  exact Quorum.third_overlap _ (signers_subset secp _ first) (signers_subset secp _ second) large

end Bound

/-! ## Four validators with the least overlap -/

section Accepting
variable (set : ValidatorSet) (blockHash : Hash) (signed : List UInt8)

theorem Sample.validSigners_eq
    (registered : ∀ byte ∈ signed, Sample.address byte ∈ set.validators) :
    validSigners Sample.secp set (Sample.certificate blockHash signed) =
      signed.map Sample.address := by
  have all : (Sample.certificate blockHash signed).signatures.filter
      (validEntry Sample.secp set blockHash) =
        (Sample.certificate blockHash signed).signatures := by
    refine List.filter_eq_self.mpr fun entry listed => ?_
    obtain ⟨byte, member, rfl⟩ := List.mem_map.mp listed
    obtain ⟨validator, found⟩ := Option.isSome_iff_exists.mp
      (Finmap.lookup_isSome.mpr (registered byte member))
    rw [validEntry, ValidatorSet.getValidator, found]
    rfl
  change ((Sample.certificate blockHash signed).signatures.filter
    (validEntry Sample.secp set blockHash)).map Prod.fst = _
  rw [all]
  simp [Sample.certificate, Function.comp_def]

end Accepting

section Tight
variable {total firstWeight secondWeight : Nat}
  (split : Quorum.Split total firstWeight secondWeight)

def tightValidators : List Validator :=
  [Sample.validator 1 (BitVec.ofNat 128 split.shared),
    Sample.validator 2 (BitVec.ofNat 128 split.onlyFirst),
    Sample.validator 3 (BitVec.ofNat 128 split.onlySecond),
    Sample.validator 4 (BitVec.ofNat 128 split.rest)]

def firstTight : QuorumCertificate := Sample.certificate Hash.zero [1, 2]

def secondTight : QuorumCertificate :=
  Sample.certificate ⟨List.Vector.replicate 32 1⟩ [1, 3]

theorem tight_distinct : ((tightValidators split).map Validator.address).Nodup := by
  simp only [tightValidators, List.map_cons, List.map_nil, Sample.validator]
  decide

theorem firstTight_signers : signers Sample.secp (built (tightValidators split)) firstTight =
    {Sample.address 1, Sample.address 2} := by
  rw [signers, firstTight, Sample.validSigners_eq]
  · rfl
  · simp [built, tightValidators, Sample.validator, ValidatorSet.addValidator_mem]

theorem secondTight_signers : signers Sample.secp (built (tightValidators split)) secondTight =
    {Sample.address 1, Sample.address 3} := by
  rw [signers, secondTight, Sample.validSigners_eq]
  · rfl
  · simp [built, tightValidators, Sample.validator, ValidatorSet.addValidator_mem]

variable (fits : total * 2 < 2 ^ 128)
include fits

theorem tight_amounts : (BitVec.ofNat 128 split.shared).toNat = split.shared ∧
    (BitVec.ofNat 128 split.onlyFirst).toNat = split.onlyFirst ∧
    (BitVec.ofNat 128 split.onlySecond).toNat = split.onlySecond ∧
    (BitVec.ofNat 128 split.rest).toNat = split.rest := by
  have sum := split.sum
  simp only [BitVec.toNat_ofNat]
  exact ⟨Nat.mod_eq_of_lt (by omega), Nat.mod_eq_of_lt (by omega), Nat.mod_eq_of_lt (by omega),
    Nat.mod_eq_of_lt (by omega)⟩

theorem tight_sum : stakeSum (tightValidators split) = total := by
  obtain ⟨shared, onlyFirst, onlySecond, rest⟩ := tight_amounts split fits
  simp only [stakeSum, tightValidators, Sample.validator, List.map_cons, List.map_nil,
    List.sum_cons, List.sum_nil, shared, onlyFirst, onlySecond, rest]
  have sum := split.sum
  omega

theorem tight_stakeOf : stakeOf (built (tightValidators split)) (Sample.address 1) = split.shared ∧
    stakeOf (built (tightValidators split)) (Sample.address 2) = split.onlyFirst ∧
    stakeOf (built (tightValidators split)) (Sample.address 3) = split.onlySecond := by
  obtain ⟨shared, onlyFirst, onlySecond, -⟩ := tight_amounts split fits
  simp [stakeOf, FiniteMap.weightAt, built, tightValidators, Sample.validator,
    ValidatorSet.addValidator, Sample.address_inj, shared, onlyFirst, onlySecond]

theorem firstTight_stake :
    distinctStake Sample.secp (built (tightValidators split)) firstTight = firstWeight := by
  obtain ⟨shared, onlyFirst, -⟩ := tight_stakeOf split fits
  have apart : Sample.address 1 ≠ Sample.address 2 := by decide
  rw [distinctStake, firstTight_signers, Finset.sum_pair apart, shared, onlyFirst]
  exact split.first_eq

theorem secondTight_stake :
    distinctStake Sample.secp (built (tightValidators split)) secondTight = secondWeight := by
  obtain ⟨shared, -, onlySecond⟩ := tight_stakeOf split fits
  have apart : Sample.address 1 ≠ Sample.address 3 := by decide
  rw [distinctStake, secondTight_signers, Finset.sum_pair apart, shared, onlySecond]
  exact split.second_eq

theorem tight_common : commonStake Sample.secp (built (tightValidators split)) firstTight
    secondTight = split.shared := by
  have meet : ({Sample.address 1, Sample.address 2} : Finset Address) ∩
      {Sample.address 1, Sample.address 3} = {Sample.address 1} := by decide
  rw [commonStake, firstTight_signers, secondTight_signers, meet, Finset.sum_singleton]
  exact (tight_stakeOf split fits).1

theorem tight_verify {qc : QuorumCertificate} {weight : Nat}
    (once : (qc.signatures.map Prod.fst).Nodup)
    (weighs : distinctStake Sample.secp (built (tightValidators split)) qc = weight)
    (attainable : Attainable total weight) :
    qc.verify Sample.secp (built (tightValidators split)) = true := by
  have sum := tight_sum split fits
  have single := repeatedStake_of_nodup Sample.secp (built (tightValidators split)) qc
    (validSigners_nodup Sample.secp _ qc once)
  obtain ⟨reached, inside⟩ := attainable
  rw [verify_iff _ _ _ (by omega), built_threshold (tight_distinct split) (by omega), sum, single,
    weighs]
  exact reached

theorem tight_conflicting (first : Attainable total firstWeight)
    (second : Attainable total secondWeight) :
    Conflicting total firstWeight secondWeight Sample.secp (tightValidators split) firstTight
      secondTight where
  distinct := tight_distinct split
  sum := tight_sum split fits
  firstOnce := by decide
  secondOnce := by decide
  firstWeighs := firstTight_stake split fits
  secondWeighs := secondTight_stake split fits
  firstVerified := tight_verify split fits (by decide) (firstTight_stake split fits) first
  secondVerified := tight_verify split fits (by decide) (secondTight_stake split fits) second
  blocks := by decide

end Tight

/-- Weights force the overlap exactly if together they exceed four thirds of the total. -/
theorem intersect_iff (total firstWeight secondWeight : Nat) (fits : total * 2 < 2 ^ 128) :
    Intersect total firstWeight secondWeight ↔
      (Attainable total firstWeight → Attainable total secondWeight →
        4 * total < 3 * (firstWeight + secondWeight)) := by
  constructor
  · -- the split with the least overlap has weights as given and nothing to spare
    intro intersect first second
    have overlap := intersect _ _ _ _
      (tight_conflicting (Quorum.leastShared first.2 second.2) fits first second)
    rw [tight_common _ fits] at overlap
    change total < 3 * (firstWeight + secondWeight - total) at overlap
    omega
  · intro large secp vs first second pair
    obtain ⟨firstAttainable, secondAttainable⟩ := pair.attainable fits
    exact pair.common_large fits (large firstAttainable secondAttainable)

theorem intersect_four : Intersect 4 3 3 :=
  (intersect_iff 4 3 3 (by decide)).mpr fun _ _ => by decide

/-- Four validators of stake one: the certificates signed by the first and the second
half both pass, for different blocks, and have no signer in common. -/
theorem disjoint_quorums :
    let vs := [1, 2, 3, 4].map fun byte => Sample.validator byte 1
    let first := Sample.certificate Hash.zero [1, 2]
    let second := Sample.certificate ⟨List.Vector.replicate 32 1⟩ [3, 4]
    Conflicting 4 2 2 Sample.secp vs first second ∧
      signers Sample.secp (built vs) first ∩ signers Sample.secp (built vs) second = ∅ ∧
      ¬ 4 < 3 * commonStake Sample.secp (built vs) first second :=
  ⟨⟨by decide, by decide, by decide, by decide, by decide, by decide, by decide, by decide,
    by decide⟩, by decide, by decide⟩

end ProtonChain.Consensus
