import ProtonChain.Contracts.PrivateToken
import ProtonChain.Privacy.Soundness
import ProtonChain.Solidity.PrivateTokenSpending

/-! What becomes of the nullifier of the circuit in the tokens.

The nonce is the constant one, so the nullifier of a transfer is the sender secret itself, whatever
is spent. A token that has seen one transfer of a sender turns every other one down.
-/

set_option autoImplicit false

namespace ProtonChain.Privacy

open R1cs

/-- After a transfer with the first nullifier both tokens turn a transfer with the second one
down in every later state, for the nullifier alone: also if its proof is accepted. -/
structure TurnsDown (first second : Hash) : Prop where
  solidity : ∀ {World : Type} (env : Solidity.TokenEnv World)
    (state next later : Solidity.ProtonPrivateToken.State World)
    (commitment root encryptedAmount : Hash) (proof : Bytes),
    Solidity.ProtonPrivateToken.privateTransfer env state first commitment root encryptedAmount
        proof = .ok next →
      (∃ inputs, (Runs.run (Solidity.ProtonPrivateToken.step env) next inputs).2 = later) →
      ∀ (commitment' root' encryptedAmount' : Hash) (proof' : Bytes),
        Solidity.ProtonPrivateToken.verifyProof env later second commitment' root' proof' =
            .ok true →
          Solidity.ProtonPrivateToken.privateTransfer env later second commitment' root'
            encryptedAmount' proof' = .error (.raised .nullifierAlreadySpent)
  native : ∀ {World : Type} [Sdk.SerializeKey Hash] (host : Contracts.PrivateTokenHost World)
    (state next later : Contracts.PrivateToken.State World) (proof : Bytes)
    (commitment root : Hash),
    Contracts.PrivateToken.privateTransfer host state proof first commitment root = .ok next →
      (∃ inputs, (Runs.run (Contracts.PrivateToken.step host) next inputs).2 = later) →
      ∀ (proof' : Bytes) (commitment' root' : Hash),
        host.verifyZk later.world proof' second commitment' root' = true →
          Contracts.PrivateToken.privateTransfer host later proof' second commitment' root' =
            .error (.reason "Nullifier already spent")

theorem turnsDown_self (nullifier : Hash) : TurnsDown nullifier nullifier where
  solidity := by
    rintro World env state next later commitment root encryptedAmount proof transferred
      ⟨inputs, rfl⟩ commitment' root' encryptedAmount' proof' verified
    obtain ⟨-, -, -, rfl⟩ := Solidity.ProtonPrivateToken.privateTransfer_eq_ok.mp transferred
    refine Solidity.ProtonPrivateToken.privateTransfer_of_spent encryptedAmount' ?_ verified
    apply Solidity.ProtonPrivateToken.mem_nullifierSpent_run
    exact Finset.mem_insert_self nullifier state.token.nullifierSpent
  native := by
    rintro World texts host state next later proof commitment root transferred ⟨inputs, rfl⟩
      proof' commitment' root' proved
    have spent := Contracts.PrivateToken.spent_of_privateTransfer transferred
    exact Contracts.PrivateToken.privateTransfer_of_spent
      (Contracts.PrivateToken.spent_run spent inputs) proved

section Fields
variable {F : Type} [Field F]

/-- Transfers of one sender that spend different commitments have different nullifiers. -/
def DistinctNullifiers (secret : F) : Prop :=
  ∀ first second : Assignment F, Satisfied first → Satisfied second →
    senderSecret first = secret → senderSecret second = secret →
    (publicInputs first).senderCommitment ≠ (publicInputs second).senderCommitment →
    (publicInputs first).nullifier ≠ (publicInputs second).nullifier

theorem nullifier_eq_secret {assignment : Assignment F} (satisfied : Satisfied assignment) :
    (publicInputs assignment).nullifier = senderSecret assignment :=
  ((satisfied_iff assignment).mp satisfied).2.2.2

/-- Nullifiers of one sender are distinct only where the sender has one commitment, which is that
of the secret zero. In whatever form a token is given the nullifier, it takes one transfer of a
sender and turns the others down. -/
theorem distinctNullifiers_iff (secret : F) :
    (DistinctNullifiers secret ↔ secret = 0) ∧
    ∀ first second : Assignment F, Satisfied first → Satisfied second →
      senderSecret first = secret → senderSecret second = secret → ∀ word : F → Hash,
        TurnsDown (word (publicInputs first).nullifier) (word (publicInputs second).nullifier) := by
  refine ⟨⟨fun distinct => ?_, ?_⟩, ?_⟩
  · by_contra nonzero
    -- the commitments of the balances zero and one
    refine distinct (assign 0 0 secret 0 0) (assign 1 0 secret 0 0) (satisfied_assign _ _ _ _ _)
      (satisfied_assign _ _ _ _ _) rfl rfl ?_ rfl
    rw [publicInputs_assign, publicInputs_assign, mul_zero, mul_one]
    exact Ne.symm nonzero
  · rintro rfl first second satisfied satisfied' secret_eq secret_eq' apart
    have opened := opened_of_satisfied satisfied
    have opened' := opened_of_satisfied satisfied'
    rw [nullifier_eq_secret satisfied, secret_eq, zero_mul] at opened
    rw [nullifier_eq_secret satisfied', secret_eq', zero_mul] at opened'
    exact absurd (opened.symm.trans opened') apart
  · intro first second satisfied satisfied' secret_eq secret_eq' word
    rw [nullifier_eq_secret satisfied, nullifier_eq_secret satisfied', secret_eq, secret_eq']
    exact turnsDown_self _

end Fields

/-- Balances of 1000 and 2000 under the secret 123. -/
theorem nullifier_repeated :
    Satisfied (assign 1000 100 123 42 0 : Assignment FrBn254) ∧
    Satisfied (assign 2000 100 123 42 0 : Assignment FrBn254) ∧
    (publicInputs (assign 1000 100 123 42 0 : Assignment FrBn254)).senderCommitment ≠
      (publicInputs (assign 2000 100 123 42 0 : Assignment FrBn254)).senderCommitment ∧
    (publicInputs (assign 1000 100 123 42 0 : Assignment FrBn254)).nullifier =
      (publicInputs (assign 2000 100 123 42 0 : Assignment FrBn254)).nullifier := by
  refine ⟨satisfied_assign _ _ _ _ _, satisfied_assign _ _ _ _ _, fun equal => ?_, rfl⟩
  have same : (123000 : U128) = 246000 := by
    apply frBn254_embedsU128
    rw [publicInputs_assign, publicInputs_assign] at equal
    norm_num at equal
    exact equal
  exact absurd same (by decide)

end ProtonChain.Privacy
