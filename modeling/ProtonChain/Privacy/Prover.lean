import ProtonChain.Privacy.Bn254
import ProtonChain.Privacy.Circuit

/-! The prover of private transfers.

Commitments are products that are formed in 128 bits and then mapped to the field, while the
circuit multiplies the factors in the field. The two agree as long as the integers do not wrap.
-/

set_option autoImplicit false

namespace ProtonChain.Privacy

open R1cs

structure ZkProof where
  proofData : Bytes
  publicInputs : List U128
  deriving DecidableEq

/-- The proof system as the prover calls it; a fault is its formatted error. -/
structure Groth16 where
  ProvingKey : Type
  Proof : Type
  prove : ProvingKey → PrivateTransferCircuit FrBn254 → Except String Proof
  serialize : Proof → Bytes

/-- The part of the system that the prover reads and writes. -/
structure ZkProtonSystem (groth16 : Groth16) where
  provingKey : Option groth16.ProvingKey
  proofCount : U64

def fieldOf {width : Nat} (value : BitVec width) : FrBn254 := (value.toNat : FrBn254)

section Inputs
variable (senderBalance transferAmount : U128) (senderSecret receiverSecret : U64)

/-- `secret as u128 * amount`, which wraps in a release build. -/
def commitment (secret : U64) (amount : U128) : U128 := secret.setWidth 128 * amount

def transferCircuit : PrivateTransferCircuit FrBn254 where
  senderBalance := some (fieldOf senderBalance)
  transferAmount := some (fieldOf transferAmount)
  receiverSecret := some (fieldOf receiverSecret)
  senderSecret := some (fieldOf senderSecret)
  senderCommitment := some (fieldOf (commitment senderSecret senderBalance))
  receiverCommitment := some (fieldOf (commitment receiverSecret transferAmount))
  nullifier := some (fieldOf senderSecret)
  merkleRoot := some (fieldOf (0 : U64))

def transferPublicInputs : List U128 :=
  [commitment senderSecret senderBalance, commitment receiverSecret transferAmount,
    senderSecret.setWidth 128, 0]

/-- The values that the prover is given satisfy the circuit, and the inputs that go with the
proof are those of the circuit. -/
def Completes : Prop :=
  ∃ system, (transferCircuit senderBalance transferAmount senderSecret receiverSecret).synthesize
      .prove = .ok system ∧ system.IsSatisfied ∧
    (transferPublicInputs senderBalance transferAmount senderSecret receiverSecret).map fieldOf =
      system.inputAssignment

end Inputs

/-! ## Commitments in 128 bits and in the field -/

theorem commitment_toNat (secret : U64) (amount : U128) :
    (commitment secret amount).toNat = secret.toNat * amount.toNat % 2 ^ 128 := by
  have widened : (secret.setWidth 128).toNat = secret.toNat :=
    BitVec.toNat_setWidth_of_le (by decide)
  rw [commitment, BitVec.toNat_mul, widened]

theorem fieldOf_commitment_iff (secret : U64) (amount : U128) :
    fieldOf (commitment secret amount) = fieldOf secret * fieldOf amount ↔
      secret.toNat * amount.toNat < 2 ^ 128 := by
  have wide : secret.toNat * amount.toNat < 2 ^ 192 :=
    calc secret.toNat * amount.toNat
      _ < 2 ^ 64 * 2 ^ 128 := Nat.mul_lt_mul'' secret.isLt amount.isLt
      _ = 2 ^ 192 := by norm_num
  have fits : (commitment secret amount).toNat < 2 ^ 192 :=
    (commitment secret amount).isLt.trans (by norm_num)
  unfold fieldOf
  rw [← Nat.cast_mul, natCast_inj_of_lt fits wide, commitment_toNat]
  exact Nat.mod_eq_iff_lt (by norm_num)

theorem fieldOf_setWidth (secret : U64) : fieldOf (secret.setWidth 128) = fieldOf secret := by
  unfold fieldOf
  rw [BitVec.toNat_setWidth_of_le (by decide)]

section Completion
variable {senderBalance transferAmount : U128} {senderSecret receiverSecret : U64}

theorem completes_iff_opened :
    Completes senderBalance transferAmount senderSecret receiverSecret ↔
      fieldOf (commitment senderSecret senderBalance) =
          fieldOf senderSecret * fieldOf senderBalance ∧
        fieldOf (commitment receiverSecret transferAmount) =
          fieldOf receiverSecret * fieldOf transferAmount := by
  have synthesized := synthesize_prove (fieldOf senderBalance) (fieldOf transferAmount)
    (fieldOf senderSecret) (fieldOf receiverSecret)
    (fieldOf (commitment senderSecret senderBalance))
    (fieldOf (commitment receiverSecret transferAmount)) (fieldOf senderSecret) (fieldOf (0 : U64))
  constructor
  · rintro ⟨system, collected, satisfied, -⟩
    obtain rfl := Except.ok.inj (synthesized.symm.trans collected)
    have meaning := (satisfied_iff _).mp ((satisfied_iff_constraints _).mpr satisfied)
    exact ⟨meaning.2.1, meaning.2.2.1⟩
  · rintro ⟨opened, opened'⟩
    refine ⟨_, synthesized, ?_, ?_⟩
    · apply (satisfied_iff_constraints _).mp
      exact (satisfied_iff _).mpr ⟨⟨rfl, rfl⟩, opened, opened', rfl⟩
    · simp only [transferPublicInputs, List.map_cons, List.map_nil, fieldOf_setWidth]
      rfl

end Completion

/-- The prover completes a transfer exactly if neither commitment wraps. -/
theorem prover_completes_iff (senderBalance transferAmount : U128)
    (senderSecret receiverSecret : U64) :
    Completes senderBalance transferAmount senderSecret receiverSecret ↔
      senderSecret.toNat * senderBalance.toNat < 2 ^ 128 ∧
        receiverSecret.toNat * transferAmount.toNat < 2 ^ 128 := by
  rw [completes_iff_opened, fieldOf_commitment_iff, fieldOf_commitment_iff]

/-- Half the range of balances, which the secret 2 takes around to zero. -/
def Sample.halfRange : U128 := BitVec.twoPow 128 127

theorem wrapped_commitment_fails :
    0 ≤ Sample.halfRange ∧ ¬ Completes Sample.halfRange 0 2 1 := by
  refine ⟨BitVec.le_def.mpr (Nat.zero_le _), ?_⟩
  intro completes
  have opened := (completes_iff_opened.mp completes).1
  have fits := (fieldOf_commitment_iff 2 Sample.halfRange).mp opened
  have secret : (2 : U64).toNat = 2 := rfl
  rw [Sample.halfRange, BitVec.toNat_twoPow, secret] at fits
  norm_num at fits

end ProtonChain.Privacy
