import ProtonChain.Privacy.Verifier
import ProtonChain.Vm.Transfer

/-! Private transfers and their proofs.

A proof that is attached is charged for and not verified. The machine moves value for
anyone who can pay, while the verifier accepts no proof at all.
-/

set_option autoImplicit false

namespace ProtonChain.Vm

open Privacy

section Proofs
variable {groth16 : Groth16Verifier} (system : ZkVerifier groth16) (sha3 : Sha3) (vm : ProtonVM)
  (tx : Transaction)

/-- The transaction succeeds only with a proof that is accepted, and without one changes
nothing. -/
structure ProofChecked : Prop where
  proven : (executeTransaction sha3 vm tx).1.success = true → system.Accepts tx
  unproven : ¬ system.Accepts tx → (executeTransaction sha3 vm tx).2.state = vm.state

/-- A private transfer is held to its proof exactly if its sender cannot pay for it. -/
theorem proofChecked_iff (kind : tx.txType = .privateTransfer) :
    ProofChecked system sha3 vm tx ↔ ¬ Affordable vm.state tx := by
  have success := transfer_success_iff sha3 vm tx (.inr kind)
  constructor
  · intro checked paid
    exact system.not_accepts tx (checked.proven (success.mpr paid))
  · intro short
    refine ⟨fun done => absurd (success.mp done) short, fun _ => ?_⟩
    rw [execute_short sha3 vm tx (.inr kind) short]

end Proofs

namespace Sample

def groth16 : Groth16Verifier where
  ProvingKey := Unit
  Proof := Unit
  prove _ _ := .ok ()
  serialize _ := List.replicate 192 1
  VerifyingKey := Unit
  publicInputs _ := []
  verify _ _ _ := .ok true

/-- The system after its setup. -/
def zkSystem : ZkVerifier Sample.groth16 where
  provingKey := some ()
  proofCount := 0
  verifyingKey := some ()
  verificationCount := 0

end Sample

theorem proofChecked_sample :
    ProofChecked Sample.zkSystem Sample.sha3 Sample.funded
      (Sample.transaction .privateTransfer 3 (some 2) 100 0) :=
  (proofChecked_iff Sample.zkSystem Sample.sha3 Sample.funded
    (Sample.transaction .privateTransfer 3 (some 2) 100 0) rfl).mpr (by decide)

/-- A private transfer without a proof moves 100. -/
theorem unproven_transfer_is_served :
    let tx := Sample.transaction .privateTransfer 1 (some 2) 100 0
    tx.zkProof = none ∧
      balanceOf (executeTransaction Sample.sha3 Sample.funded tx).2.state (Sample.address 2) =
        100 ∧
      ¬ ProofChecked Sample.zkSystem Sample.sha3 Sample.funded tx := by
  intro tx
  refine ⟨rfl, by decide, fun checked => ?_⟩
  exact Sample.zkSystem.not_accepts tx (checked.proven (by decide))

end ProtonChain.Vm
