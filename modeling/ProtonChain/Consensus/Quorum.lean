import ProtonChain.Consensus.Validators
import ProtonChain.Library.Quorum

/-! Certificate weights.

A certificate passes on two thirds of the stake rounded down, reached or
exceeded, and every entry counts, a repeated one again. Signature checking is an
arbitrary predicate throughout.
-/

set_option autoImplicit false

namespace ProtonChain.Consensus

section Weight
variable (secp : Secp256k1) (set : ValidatorSet) (qc : QuorumCertificate)

def stakeOf (address : Address) : Nat :=
  FiniteMap.weightAt (fun validator : Validator => validator.stake.toNat) set.validators address

def validEntry (hash : Hash) (entry : Address × Bytes) : Bool :=
  match set.getValidator entry.1 with
  | none => false
  | some validator => validator.verifySignature secp hash entry.2

def validAddresses (hash : Hash) (entries : List (Address × Bytes)) : List Address :=
  (entries.filter (validEntry secp set hash)).map Prod.fst

def validSigners : List Address := validAddresses secp set qc.blockHash qc.signatures

def signers : Finset Address := (validSigners secp set qc).toFinset

def distinctStake : Nat := ∑ address ∈ signers secp set qc, stakeOf set address

/-- What the loop of `verify` ends with. -/
def stakeWeight : U128 :=
  qc.signatures.foldl (QuorumCertificate.countEntry secp set qc.blockHash) 0

/-- Every validator's stake times the number of its valid entries. -/
def repeatedStake : Nat :=
  ∑ address ∈ signers secp set qc,
    (validSigners secp set qc).count address * stakeOf set address

theorem countEntry_toNat (hash : Hash) (weight : U128) (entry : Address × Bytes) :
    (QuorumCertificate.countEntry secp set hash weight entry).toNat =
      (weight.toNat + if validEntry secp set hash entry then stakeOf set entry.1 else 0) %
        2 ^ 128 := by
  have small := weight.isLt
  unfold QuorumCertificate.countEntry validEntry stakeOf FiniteMap.weightAt
  rw [ValidatorSet.getValidator]
  cases set.validators.lookup entry.1 with
  | none => simp [Nat.mod_eq_of_lt small]
  | some validator =>
    cases valid : validator.verifySignature secp hash entry.2
    · simp [valid, Nat.mod_eq_of_lt small]
    · simp [valid, BitVec.toNat_add]

theorem countEntries_toNat (hash : Hash) (entries : List (Address × Bytes)) (weight : U128) :
    (entries.foldl (QuorumCertificate.countEntry secp set hash) weight).toNat =
      (weight.toNat + ((validAddresses secp set hash entries).map (stakeOf set)).sum) %
        2 ^ 128 := by
  -- The counter is the parameter of the induction: each entry starts from the last one's sum.
  induction entries generalizing weight with
  | nil => simp [validAddresses, Nat.mod_eq_of_lt weight.isLt]
  | cons entry rest ih =>
    rw [List.foldl_cons, ih, countEntry_toNat, Nat.mod_add_mod]
    cases valid : validEntry secp set hash entry
    · simp [validAddresses, valid]
    · simp [validAddresses, valid, Nat.add_assoc]

theorem sum_validSigners :
    ((validSigners secp set qc).map (stakeOf set)).sum = repeatedStake secp set qc := by
  rw [Finset.sum_list_map_count, repeatedStake, signers]
  exact Finset.sum_congr rfl fun address _ => nsmul_eq_mul _ _

theorem distinctStake_le_repeatedStake :
    distinctStake secp set qc ≤ repeatedStake secp set qc := by
  refine Finset.sum_le_sum fun address member => ?_
  have counted : 0 < (validSigners secp set qc).count address :=
    List.count_pos_iff.mpr (List.mem_toFinset.mp member)
  exact Nat.le_mul_of_pos_left _ counted

theorem stakeWeight_toNat (fits : repeatedStake secp set qc < 2 ^ 128) :
    (stakeWeight secp set qc).toNat = repeatedStake secp set qc := by
  have start : (0 : U128).toNat = 0 := rfl
  have sum := sum_validSigners secp set qc
  rw [validSigners] at sum
  rw [stakeWeight, countEntries_toNat, sum, start, Nat.zero_add, Nat.mod_eq_of_lt fits]

theorem verify_iff (fits : repeatedStake secp set qc < 2 ^ 128) :
    qc.verify secp set = true ↔
      (QuorumCertificate.threshold set).toNat ≤ repeatedStake secp set qc := by
  rw [QuorumCertificate.verify, decide_eq_true_iff, BitVec.le_def]
  change _ ≤ (stakeWeight secp set qc).toNat ↔ _
  rw [stakeWeight_toNat secp set qc fits]

theorem repeatedStake_of_nodup (once : (validSigners secp set qc).Nodup) :
    repeatedStake secp set qc = distinctStake secp set qc := by
  refine Finset.sum_congr rfl fun address member => ?_
  rw [List.count_eq_one_of_mem once (List.mem_toFinset.mp member), Nat.one_mul]

end Weight

/-! ## Repeated signers -/

section Repetition
variable (secp : Secp256k1) (set : ValidatorSet) (qc : QuorumCertificate)

/-- The same certificate with all but one of the valid entries of each address dropped. -/
structure Deduplicates (single : QuorumCertificate) : Prop where
  others : single = { qc with signatures := single.signatures }
  sublist : single.signatures.Sublist qc.signatures
  invalid : (single.signatures.filter fun entry => !validEntry secp set qc.blockHash entry) =
    qc.signatures.filter fun entry => !validEntry secp set qc.blockHash entry
  once : (validSigners secp set single).Nodup
  kept : ∀ address ∈ validSigners secp set qc, address ∈ validSigners secp set single

/-- Every valid entry goes whose address signs validly further on. -/
def dropRepeats (hash : Hash) : List (Address × Bytes) → List (Address × Bytes)
  | [] => []
  | entry :: rest =>
    if validEntry secp set hash entry ∧ entry.1 ∈ validAddresses secp set hash rest then
      dropRepeats hash rest
    else entry :: dropRepeats hash rest

theorem dropRepeats_sublist (hash : Hash) (entries : List (Address × Bytes)) :
    (dropRepeats secp set hash entries).Sublist entries := by
  induction entries with
  | nil => exact List.Sublist.refl []
  | cons entry rest ih =>
    rw [dropRepeats]
    split
    · exact ih.cons entry
    · exact ih.cons_cons entry

theorem dropRepeats_invalid (hash : Hash) (entries : List (Address × Bytes)) :
    ((dropRepeats secp set hash entries).filter fun entry => !validEntry secp set hash entry) =
      entries.filter fun entry => !validEntry secp set hash entry := by
  induction entries with
  | nil => rfl
  | cons entry rest ih =>
    rw [dropRepeats]
    split
    · rename_i repeated
      simp [repeated.1, ih]
    · simp [List.filter_cons, ih]

theorem mem_dropRepeats (hash : Hash) (entries : List (Address × Bytes)) (address : Address) :
    address ∈ validAddresses secp set hash (dropRepeats secp set hash entries) ↔
      address ∈ validAddresses secp set hash entries := by
  induction entries with
  | nil => rfl
  | cons entry rest ih =>
    rw [dropRepeats]
    split
    · rename_i repeated
      rw [ih]
      simp only [validAddresses, List.filter_cons, repeated.1, if_true, List.map_cons,
        List.mem_cons]
      constructor
      · exact .inr
      · rintro (rfl | member)
        · exact repeated.2
        · exact member
    · cases valid : validEntry secp set hash entry
      · simpa [validAddresses, valid] using ih
      · simp only [validAddresses] at ih
        simp [validAddresses, valid, ih]

theorem dropRepeats_nodup (hash : Hash) (entries : List (Address × Bytes)) :
    (validAddresses secp set hash (dropRepeats secp set hash entries)).Nodup := by
  induction entries with
  | nil => exact List.nodup_nil
  | cons entry rest ih =>
    rw [dropRepeats]
    split
    · exact ih
    · -- the entry is invalid, or the last valid one of its address
      rename_i last
      cases valid : validEntry secp set hash entry
      · simpa [validAddresses, valid] using ih
      · have fresh : entry.1 ∉ validAddresses secp set hash (dropRepeats secp set hash rest) :=
          fun member => last ⟨valid, (mem_dropRepeats secp set hash rest entry.1).mp member⟩
        rw [validAddresses, List.filter_cons_of_pos valid, List.map_cons]
        exact List.nodup_cons.mpr ⟨fresh, ih⟩

theorem deduplicates_dropRepeats : Deduplicates secp set qc
    { qc with signatures := dropRepeats secp set qc.blockHash qc.signatures } where
  others := rfl
  sublist := dropRepeats_sublist secp set _ _
  invalid := dropRepeats_invalid secp set _ _
  once := dropRepeats_nodup secp set _ _
  kept address member := (mem_dropRepeats secp set _ _ address).mpr member

section Single
variable {secp set qc} {single : QuorumCertificate}

theorem Deduplicates.signers_eq (dedup : Deduplicates secp set qc single) :
    signers secp set single = signers secp set qc := by
  have hash : single.blockHash = qc.blockHash := by rw [dedup.others]
  ext address
  rw [signers, signers, List.mem_toFinset, List.mem_toFinset]
  refine ⟨fun member => ?_, dedup.kept address⟩
  rw [validSigners, hash] at member
  exact ((dedup.sublist.filter _).map _).subset member

theorem Deduplicates.repeatedStake_eq (dedup : Deduplicates secp set qc single) :
    repeatedStake secp set single = distinctStake secp set qc := by
  rw [repeatedStake_of_nodup secp set single dedup.once, distinctStake, dedup.signers_eq,
    distinctStake]

theorem Deduplicates.verify_iff (dedup : Deduplicates secp set qc single)
    (fits : repeatedStake secp set qc < 2 ^ 128) :
    single.verify secp set = true ↔
      (QuorumCertificate.threshold set).toNat ≤ distinctStake secp set qc := by
  have less := distinctStake_le_repeatedStake secp set qc
  rw [← dedup.repeatedStake_eq] at less ⊢
  exact Consensus.verify_iff secp set single (less.trans_lt fits)

end Single

/-- Dropping repeated entries leaves the verdict as it is. -/
def VerdictKept : Prop :=
  ∀ single, Deduplicates secp set qc single → single.verify secp set = qc.verify secp set

theorem verdictKept_iff (fits : repeatedStake secp set qc < 2 ^ 128) :
    VerdictKept secp set qc ↔
      (QuorumCertificate.threshold set).toNat ≤ distinctStake secp set qc ∨
        repeatedStake secp set qc < (QuorumCertificate.threshold set).toNat := by
  have less := distinctStake_le_repeatedStake secp set qc
  have verdict := verify_iff secp set qc fits
  constructor
  · intro kept
    have dedup := deduplicates_dropRepeats secp set qc
    have single := dedup.verify_iff fits
    rw [kept _ dedup, verdict] at single
    omega
  · intro side single dedup
    rw [Bool.eq_iff_iff, dedup.verify_iff fits, verdict]
    omega

theorem repeatedStake_eq_distinctStake_iff :
    repeatedStake secp set qc = distinctStake secp set qc ↔
      ∀ address ∈ signers secp set qc,
        stakeOf set address = 0 ∨ (validSigners secp set qc).count address = 1 := by
  have pointwise : ∀ address ∈ signers secp set qc, stakeOf set address ≤
      (validSigners secp set qc).count address * stakeOf set address := fun address member =>
    Nat.le_mul_of_pos_left _ (List.count_pos_iff.mpr (List.mem_toFinset.mp member))
  rw [eq_comm, distinctStake, repeatedStake, Finset.sum_eq_sum_iff_of_le pointwise]
  refine forall₂_congr fun address member => ?_
  rw [eq_comm, mul_left_eq_self₀]
  exact or_comm

/-- Repetitions never matter exactly if no staked validator has two valid entries;
the verdict alone survives also where they do not carry the weight across the threshold. -/
theorem repetition_harmless_iff (fits : repeatedStake secp set qc < 2 ^ 128) :
    ((VerdictKept secp set qc ∧
        (stakeWeight secp set qc).toNat = distinctStake secp set qc) ↔
      ∀ address ∈ signers secp set qc,
        stakeOf set address = 0 ∨ (validSigners secp set qc).count address = 1) ∧
    (VerdictKept secp set qc ↔
      (QuorumCertificate.threshold set).toNat ≤ distinctStake secp set qc ∨
        repeatedStake secp set qc < (QuorumCertificate.threshold set).toNat) := by
  have verdict := verdictKept_iff secp set qc fits
  refine ⟨?_, verdict⟩
  rw [stakeWeight_toNat secp set qc fits, ← repeatedStake_eq_distinctStake_iff, verdict]
  constructor
  · exact And.right
  · intro same
    exact ⟨by omega, same⟩

end Repetition

/-! ## Concrete certificates -/

namespace Sample

/-- Keys, messages and signatures are the bytes themselves, and all signatures check. -/
def secp : Secp256k1 where
  PublicKey := Bytes
  Message := Bytes
  Signature := Bytes
  publicKeyFromSlice := some
  messageFromSlice := some
  signatureFromCompact := some
  verifyEcdsa _ _ _ := true

def validator (byte : UInt8) (stake : U128) : Validator :=
  { address := Sample.address byte, publicKey := [], stake := stake }

/-- Three validators of stake one, where the threshold is two. -/
def three : ValidatorSet :=
  ((ValidatorSet.new.addValidator (validator 1 1)).addValidator (validator 2 1)).addValidator
    (validator 3 1)

def certificate (blockHash : Hash) (signed : List UInt8) : QuorumCertificate where
  blockHash := blockHash
  height := 1
  round := 0
  phase := .commit
  signatures := signed.map fun byte => (Sample.address byte, [])
  timestamp := 0

end Sample

/-- The entry that is repeated is of nobody in the set. -/
theorem repetition_harmless_sample :
    VerdictKept Sample.secp Sample.three (Sample.certificate Hash.zero [1, 9, 2, 9]) :=
  ((repetition_harmless_iff Sample.secp Sample.three
    (Sample.certificate Hash.zero [1, 9, 2, 9]) (by decide)).1.mpr (by decide)).1

/-- One of the three validators, listed twice, reaches the threshold alone. -/
theorem repeated_signer_accepted :
    repeatedStake Sample.secp Sample.three (Sample.certificate Hash.zero [1, 1]) < 2 ^ 128 ∧
      (Sample.certificate Hash.zero [1, 1]).verify Sample.secp Sample.three = true ∧
      (Sample.certificate Hash.zero [1]).verify Sample.secp Sample.three = false ∧
      ¬ VerdictKept Sample.secp Sample.three (Sample.certificate Hash.zero [1, 1]) := by
  refine ⟨by decide, by decide, by decide, fun kept => ?_⟩
  have same := kept _ (deduplicates_dropRepeats Sample.secp Sample.three _)
  exact absurd same (by decide)

/-! ## Votes and what they are for -/

section View
variable (secp : Secp256k1) (set : ValidatorSet)

/-- The same signatures, presented for another height, round and phase. -/
def QuorumCertificate.presentedAs (qc : QuorumCertificate) (height round : U64)
    (phase : ConsensusPhase) : QuorumCertificate :=
  { qc with height := height, round := round, phase := phase }

def ViewBound (qc : QuorumCertificate) : Prop :=
  ∀ height round phase, (height, round, phase) ≠ (qc.height, qc.round, qc.phase) →
    (qc.presentedAs height round phase).verify secp set = false

/-- The verdict is about the block hash and the signatures alone. -/
theorem verify_eq_of_votes {first second : QuorumCertificate}
    (blockHash : first.blockHash = second.blockHash)
    (signatures : first.signatures = second.signatures) :
    first.verify secp set = second.verify secp set := by
  unfold QuorumCertificate.verify
  rw [blockHash, signatures]

/-- Whatever verifies does so for every height, round and phase of its block. -/
theorem not_viewBound (qc : QuorumCertificate) (verified : qc.verify secp set = true) :
    (∀ height round phase, (qc.presentedAs height round phase).verify secp set = true) ∧
      ¬ ViewBound secp set qc := by
  have everywhere : ∀ height round phase,
      (qc.presentedAs height round phase).verify secp set = true := fun height round phase =>
    (verify_eq_of_votes secp set rfl rfl).trans verified
  refine ⟨everywhere, fun bound => ?_⟩
  -- the next round is another one
  have other : (qc.height, qc.round + 1, qc.phase) ≠ (qc.height, qc.round, qc.phase) := by
    intro same
    have round := (Prod.ext_iff.mp (Prod.ext_iff.mp same).2).1
    change qc.round + 1 = qc.round at round
    bv_omega
  have refused := bound qc.height (qc.round + 1) qc.phase other
  exact Bool.false_ne_true (refused.symm.trans (everywhere _ _ _))

end View

theorem not_viewBound_sample :
    ¬ ViewBound Sample.secp Sample.three (Sample.certificate Hash.zero [1, 2]) :=
  (not_viewBound Sample.secp Sample.three (Sample.certificate Hash.zero [1, 2]) (by decide)).2

/-- Commit votes of one height verify as prepare votes of another height and round. -/
theorem commit_votes_presented_as_prepare :
    let qc := Sample.certificate Hash.zero [1, 2]
    0 < Sample.three.totalStake ∧ qc.verify Sample.secp Sample.three = true ∧
      (qc.presentedAs 7 4 .prepare).verify Sample.secp Sample.three = true ∧
      ¬ ViewBound Sample.secp Sample.three qc := by
  refine ⟨by decide, by decide, by decide, fun bound => ?_⟩
  have refused := bound 7 4 .prepare (by decide)
  exact absurd refused (by decide)

end ProtonChain.Consensus
