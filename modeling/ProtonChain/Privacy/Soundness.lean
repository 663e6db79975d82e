import Mathlib.Algebra.Field.Basic
import ProtonChain.Privacy.Bn254
import ProtonChain.Privacy.Circuit

/-! What the public inputs of a private transfer say about the hidden amounts.

An assignment may choose any amount and open the receiver commitment with a secret that fits it,
and the balance only has to fit the sender commitment. So the amount is never held below the
balance, and never determined where there is an assignment at all.
-/

set_option autoImplicit false

namespace ProtonChain.Privacy

section Fields
variable {F : Type} [Field F]

/-- Every amount but zero opens every receiver commitment. -/
theorem exists_satisfied {inputs : PublicInputs F} {balance amount : F}
    (opened : inputs.nullifier * balance = inputs.senderCommitment) (nonzero : amount ≠ 0) :
    ∃ assignment, Satisfied assignment ∧ publicInputs assignment = inputs ∧
      senderBalance assignment = balance ∧ transferAmount assignment = amount := by
  let secret := inputs.receiverCommitment / amount
  refine ⟨assign balance amount inputs.nullifier secret inputs.merkleRoot,
    satisfied_assign _ _ _ _ _, ?_, rfl, rfl⟩
  have opened' : secret * amount = inputs.receiverCommitment := div_mul_cancel₀ _ nonzero
  rw [publicInputs_assign, opened, opened']

theorem opened_of_satisfied {assignment : R1cs.Assignment F} (satisfied : Satisfied assignment) :
    (publicInputs assignment).nullifier * senderBalance assignment =
      (publicInputs assignment).senderCommitment := by
  obtain ⟨-, opened, -, same⟩ := (satisfied_iff assignment).mp satisfied
  rw [same, opened]

/-! ## Solvency -/

/-- No assignment with these public inputs spends more than the balance. -/
def Solvent (inputs : PublicInputs F) : Prop :=
  ∀ assignment, Satisfied assignment → publicInputs assignment = inputs →
    ∀ balance amount : U128, senderBalance assignment = balance.toNat →
      transferAmount assignment = amount.toNat → amount ≤ balance

/-- The inputs rule an overdraft out exactly if no balance below the largest one fits them. -/
theorem overdraft_excluded_iff (embeds : EmbedsU128 F) (inputs : PublicInputs F) :
    Solvent inputs ↔ ∀ balance : U128, balance.toNat + 1 < 2 ^ 128 →
      inputs.nullifier * (balance.toNat : F) ≠ inputs.senderCommitment := by
  constructor
  · intro solvent balance room opened
    -- one more than the balance is an amount of its own
    have next : (balance + 1).toNat = balance.toNat + 1 := by
      rw [BitVec.toNat_add, show (1 : U128).toNat = 1 from rfl, Nat.mod_eq_of_lt room]
    have nonzero : ((balance + 1).toNat : F) ≠ 0 := by
      intro zero
      have same : balance + 1 = 0 := embeds (zero.trans Nat.cast_zero.symm)
      rw [same] at next
      exact absurd next (by simp)
    obtain ⟨assignment, satisfied, public_eq, balance_eq, amount_eq⟩ :=
      exists_satisfied opened nonzero
    have below := solvent assignment satisfied public_eq balance (balance + 1) balance_eq amount_eq
    rw [BitVec.le_def, next] at below
    omega
  · intro unopened assignment satisfied public_eq balance amount balance_eq amount_eq
    by_contra above
    rw [BitVec.not_le, BitVec.lt_def] at above
    have opened := opened_of_satisfied satisfied
    rw [public_eq, balance_eq] at opened
    exact unopened balance (by have := amount.isLt; omega) opened

end Fields

/-- The public inputs of the setup circuit allow an overdraft. -/
theorem setup_inputs_insolvent :
    ¬ Solvent (⟨123000, 4200, 123, 0⟩ : PublicInputs FrBn254) := by
  rw [overdraft_excluded_iff frBn254_embedsU128]
  intro unopened
  apply unopened 1000 (by decide)
  rw [show (1000 : U128).toNat = 1000 from rfl]
  norm_num

def overdraft : R1cs.Assignment FrBn254 := assign 100 1000 123 42 0

theorem overdraft_satisfied :
    EmbedsU128 FrBn254 ∧ Satisfied overdraft ∧
    senderBalance overdraft = ((100 : U128).toNat : FrBn254) ∧
    transferAmount overdraft = ((1000 : U128).toNat : FrBn254) ∧ ¬ (1000 : U128) ≤ 100 :=
  ⟨frBn254_embedsU128, satisfied_assign _ _ _ _ _, rfl, rfl, by decide⟩

/-! ## Binding -/

section Fields
variable {F : Type} [Field F]

/-- Two assignments with these public inputs have the same balance and the same amount. -/
def BindsAmounts (inputs : PublicInputs F) : Prop :=
  ∀ first second, Satisfied first → Satisfied second → publicInputs first = inputs →
    publicInputs second = inputs →
    senderBalance first = senderBalance second ∧ transferAmount first = transferAmount second

def BindsBalance (inputs : PublicInputs F) : Prop :=
  ∀ first second, Satisfied first → Satisfied second → publicInputs first = inputs →
    publicInputs second = inputs → senderBalance first = senderBalance second

theorem exists_opening {inputs : PublicInputs F}
    (fits : ¬ (inputs.nullifier = 0 ∧ inputs.senderCommitment ≠ 0)) :
    ∃ balance, inputs.nullifier * balance = inputs.senderCommitment := by
  by_cases zero : inputs.nullifier = 0
  · have nothing : inputs.senderCommitment = 0 := by
      by_contra some
      exact fits ⟨zero, some⟩
    exact ⟨0, by rw [mul_zero, nothing]⟩
  · exact ⟨inputs.senderCommitment / inputs.nullifier, mul_div_cancel₀ _ zero⟩

theorem bindsBalance_iff (inputs : PublicInputs F) :
    BindsBalance inputs ↔ inputs.nullifier ≠ 0 ∨ inputs.senderCommitment ≠ 0 := by
  constructor
  · intro binds
    by_contra neither
    rw [not_or, not_not, not_not] at neither
    have opened (balance : F) : inputs.nullifier * balance = inputs.senderCommitment := by
      rw [neither.1, neither.2, zero_mul]
    obtain ⟨first, satisfied, public_eq, balance_eq, -⟩ := exists_satisfied (opened 0) one_ne_zero
    obtain ⟨second, satisfied', public_eq', balance_eq', -⟩ :=
      exists_satisfied (opened 1) one_ne_zero
    have same := binds first second satisfied satisfied' public_eq public_eq'
    rw [balance_eq, balance_eq'] at same
    exact zero_ne_one same
  · intro some first second satisfied satisfied' public_eq public_eq'
    have opened := opened_of_satisfied satisfied
    have opened' := opened_of_satisfied satisfied'
    rw [public_eq] at opened
    rw [public_eq'] at opened'
    have nonzero : inputs.nullifier ≠ 0 := by
      rintro zero
      rw [zero, zero_mul] at opened
      exact some.elim (fun nonzero => nonzero zero) fun nonzero => nonzero opened.symm
    exact mul_left_cancel₀ nonzero (opened.trans opened'.symm)

/-- The amounts are determined only where nothing satisfies the circuit. The balance alone is
determined also where the nullifier is not zero. -/
theorem bindsAmounts_iff (embeds : EmbedsU128 F) (inputs : PublicInputs F) :
    (BindsAmounts inputs ↔ inputs.nullifier = 0 ∧ inputs.senderCommitment ≠ 0) ∧
    (BindsBalance inputs ↔ inputs.nullifier ≠ 0 ∨ inputs.senderCommitment ≠ 0) := by
  refine ⟨⟨fun binds => ?_, ?_⟩, bindsBalance_iff inputs⟩
  · by_contra fits
    obtain ⟨balance, opened⟩ := exists_opening fits
    -- the amounts one and two are open to any receiver commitment
    have two_ne_zero : (((2 : U128).toNat : Nat) : F) ≠ 0 := by
      intro zero
      have same : (2 : U128) = 0 := embeds (zero.trans Nat.cast_zero.symm)
      exact absurd same (by decide)
    have two_ne_one : (((2 : U128).toNat : Nat) : F) ≠ 1 := by
      intro one
      have same : (2 : U128) = 1 := embeds (one.trans Nat.cast_one.symm)
      exact absurd same (by decide)
    obtain ⟨first, satisfied, public_eq, -, amount_eq⟩ := exists_satisfied opened two_ne_zero
    obtain ⟨second, satisfied', public_eq', -, amount_eq'⟩ := exists_satisfied opened one_ne_zero
    have same := (binds first second satisfied satisfied' public_eq public_eq').2
    rw [amount_eq, amount_eq'] at same
    exact two_ne_one same
  · rintro ⟨zero, nonzero⟩ first second satisfied - public_eq -
    have opened := opened_of_satisfied satisfied
    rw [public_eq, zero, zero_mul] at opened
    exact absurd opened.symm nonzero

end Fields

theorem setup_inputs_unbound :
    ¬ BindsAmounts (⟨123000, 4200, 123, 0⟩ : PublicInputs FrBn254) ∧
    BindsAmounts (⟨1, 4200, 0, 0⟩ : PublicInputs FrBn254) := by
  constructor
  · rw [(bindsAmounts_iff frBn254_embedsU128 _).1]
    rintro ⟨zero, -⟩
    have same : (123 : U128) = 0 := frBn254_embedsU128 (zero.trans Nat.cast_zero.symm)
    exact absurd same (by decide)
  · exact (bindsAmounts_iff frBn254_embedsU128 _).1.mpr ⟨rfl, one_ne_zero⟩

/-- The receiver commitment 4200 hides the amount 100 under the secret 42, and 42 under 100. -/
theorem amount_ambiguous :
    EmbedsU128 FrBn254 ∧
    Satisfied (assign 1000 100 123 42 0 : R1cs.Assignment FrBn254) ∧
    Satisfied (assign 1000 42 123 100 0 : R1cs.Assignment FrBn254) ∧
    publicInputs (assign 1000 100 123 42 0 : R1cs.Assignment FrBn254) =
      publicInputs (assign 1000 42 123 100 0) ∧
    transferAmount (assign 1000 100 123 42 0 : R1cs.Assignment FrBn254) ≠
      transferAmount (assign 1000 42 123 100 0) := by
  refine ⟨frBn254_embedsU128, satisfied_assign _ _ _ _ _, satisfied_assign _ _ _ _ _, ?_, ?_⟩
  · rw [publicInputs_assign, publicInputs_assign, mul_comm (42 : FrBn254) 100]
  · intro equal
    have same : (100 : U128) = 42 := frBn254_embedsU128 equal
    exact absurd same (by decide)

end ProtonChain.Privacy
