import ProtonChain.Solidity.ZKCompletion

/-! Batches of proofs at the verifier.

A batch is checked one proof after the other with the same key. The first check that reverts takes
the others with it, so what a batch answers is what its proofs would answer one by one, or nothing.
-/

set_option autoImplicit false

namespace ProtonChain.Solidity.ProtonZKVerifier

open Checked

section Batch
variable (check : VerifyingKey → Proof → List U256 → Outcome VerifierError Bool)
  (verifier : ProtonZKVerifier)

/-- The loop of `batchVerify` over arrays of one length. -/
def verifyEach : List Bytes → List (List U256) → Outcome VerifierError (List Bool)
  | proof :: proofs, inputs :: publicInputs => do
    let proof ← decodeProof proof
    let result ← check verifier.vk proof inputs
    let results ← verifyEach proofs publicInputs
    return result :: results
  | _, _ => .ok []

def batchVerify (proofs : List Bytes) (publicInputs : List (List U256)) :
    Outcome VerifierError (List Bool) := do
  ensure verifier.vkSet (.raised .verificationKeyNotSet)
  ensure (proofs.length = publicInputs.length) (.reason "Length mismatch")
  verifyEach check verifier proofs publicInputs

variable {check} {verifier} {proofs : List Bytes} {publicInputs : List (List U256)}
  {results : List Bool}

theorem verify_eq_ok (set : verifier.vkSet = true) {inputs : List U256} {proof : Bytes}
    {result : Bool} :
    verify check verifier inputs proof = .ok result ↔
      ∃ decoded, decodeProof proof = .ok decoded ∧
        check verifier.vk decoded inputs = .ok result := by
  simp only [verify, bind_eq_ok, ensure_eq_ok]
  exact ⟨fun ⟨_, _, answered⟩ => answered, fun answered => ⟨(), set, answered⟩⟩

theorem verifyEach_eq_ok (set : verifier.vkSet = true)
    (lengths : proofs.length = publicInputs.length) :
    verifyEach check verifier proofs publicInputs = .ok results ↔
      List.zipWith (verify check verifier) publicInputs proofs = results.map .ok := by
  induction proofs generalizing publicInputs results with
  | nil =>
    obtain rfl := List.length_eq_zero_iff.mp lengths.symm
    cases results <;> simp [verifyEach]
  | cons proof proofs ih =>
    cases publicInputs with
    | nil => cases lengths
    | cons inputs publicInputs =>
      simp only [verifyEach, bind_eq_ok, pure_eq_ok, List.zipWith_cons_cons]
      have each (rest : List Bool) : verifyEach check verifier proofs publicInputs = .ok rest ↔
          List.zipWith (verify check verifier) publicInputs proofs = rest.map .ok :=
        ih (Nat.succ.inj lengths)
      constructor
      · rintro ⟨decoded, decodes, result, checked, rest, looped, rfl⟩
        rw [List.map_cons, (verify_eq_ok set).mpr ⟨decoded, decodes, checked⟩,
          (each rest).mp looped]
      · intro answers
        cases results with
        | nil => cases answers
        | cons result rest =>
          obtain ⟨first, others⟩ := List.cons.inj answers
          obtain ⟨decoded, decodes, checked⟩ := (verify_eq_ok set).mp first
          exact ⟨decoded, decodes, result, checked, rest, (each rest).mpr others, rfl⟩

/-- A batch answers what its proofs answer one by one, and only if all of them answer. -/
theorem batchVerify_eq_ok :
    batchVerify check verifier proofs publicInputs = .ok results ↔
      verifier.vkSet = true ∧ proofs.length = publicInputs.length ∧
        List.zipWith (verify check verifier) publicInputs proofs = results.map .ok := by
  simp only [batchVerify, bind_eq_ok, ensure_eq_ok]
  constructor
  · rintro ⟨-, set, -, lengths, looped⟩
    exact ⟨set, lengths, (verifyEach_eq_ok set lengths).mp looped⟩
  · rintro ⟨set, lengths, answers⟩
    exact ⟨(), set, (), lengths, (verifyEach_eq_ok set lengths).mpr answers⟩

end Batch

/-! ## With the placeholder of the pairing check -/

section Placeholder

/-- Points beyond the inputs are not looked at. -/
theorem combineInputs_take (ic : List Point) (publicInputs : List U256) (vkX : Point) :
    combineInputs ic publicInputs vkX =
      combineInputs (ic.take publicInputs.length) publicInputs vkX := by
  induction publicInputs generalizing ic vkX with
  | nil => simp only [combineInputs]
  | cons input publicInputs ih =>
    cases ic with
    | nil => rfl
    | cons point ic =>
      simp only [List.length_cons, List.take_succ_cons, combineInputs]
      simp only [ih ic]

theorem combined_take (coordinate : Point → U256) (ic : List Point) (publicInputs : List U256) :
    combined coordinate ic publicInputs =
      combined coordinate (ic.take publicInputs.length) publicInputs := by
  induction publicInputs generalizing ic with
  | nil => cases ic <;> rfl
  | cons input publicInputs ih =>
    cases ic with
    | nil => rfl
    | cons point ic =>
      simp only [List.length_cons, List.take_succ_cons, combined]
      rw [ih ic]

theorem verifyProof_eq_ok {vk : VerifyingKey} {proof : Proof} {inputs : List U256}
    {result : Bool} :
    verifyProof vk proof inputs = .ok result ↔
      result = true ∧ inputs.length < vk.ic.length ∧ CoordinatesFit vk.ic inputs := by
  rw [verifyProof]
  cases key : vk.ic with
  | nil => simp
  | cons vkX ic =>
    simp only [bind_eq_ok, pure_eq_ok, List.length_cons, Nat.lt_succ_iff]
    have one : (1 : U256).toNat = 1 := rfl
    have fits (enough : inputs.length ≤ ic.length) :
        (∃ result, combineInputs ic inputs vkX = .ok result) ↔
          CoordinatesFit (vkX :: ic) inputs := by
      rw [combineInputs_take, combineInputs_succeeds_iff (List.length_take_of_le enough) vkX,
        ← combined_take, ← combined_take, CoordinatesFit, combined, combined, one, Nat.mul_one,
        Nat.mul_one]
    constructor
    · rintro ⟨sum, computed, rfl⟩
      have enough := length_combineInputs computed
      exact ⟨rfl, enough, (fits enough).mp ⟨sum, computed⟩⟩
    · rintro ⟨rfl, enough, fit⟩
      obtain ⟨sum, computed⟩ := (fits enough).mpr fit
      exact ⟨sum, computed, rfl⟩

theorem decodeProof_succeeds_iff {proof : Bytes} :
    (∃ decoded, decodeProof proof = .ok decoded) ↔ 256 ≤ proof.length := by
  constructor
  · rintro ⟨decoded, decodes⟩
    simp only [decodeProof, bind_eq_ok, ensure_eq_ok] at decodes
    exact decodes.choose_spec.1
  · exact decodeProof_succeeds

/-- A batch is answered exactly if the key is set, the arrays have one length, every proof is long
enough, and every list of inputs has enough points and fits. Then every proof in it is accepted;
otherwise the whole batch reverts. -/
theorem batchVerify_answers_iff (verifier : ProtonZKVerifier) (proofs : List Bytes)
    (publicInputs : List (List U256)) (results : List Bool) :
    batchVerify verifyProof verifier proofs publicInputs = .ok results ↔
      verifier.vkSet = true ∧ proofs.length = publicInputs.length ∧
        (∀ proof ∈ proofs, 256 ≤ proof.length) ∧
        (∀ inputs ∈ publicInputs, inputs.length < verifier.vk.ic.length ∧
          CoordinatesFit verifier.vk.ic inputs) ∧
        results = List.replicate proofs.length true := by
  rw [batchVerify_eq_ok]
  refine and_congr_right fun set => and_congr_right fun lengths => ?_
  have single (inputs : List U256) (proof : Bytes) (result : Bool) :
      verify verifyProof verifier inputs proof = .ok result ↔
        256 ≤ proof.length ∧ (inputs.length < verifier.vk.ic.length ∧
          CoordinatesFit verifier.vk.ic inputs) ∧ result = true := by
    rw [verify_eq_ok set, ← decodeProof_succeeds_iff]
    simp only [verifyProof_eq_ok, exists_and_right]
    exact and_congr_right fun _ => and_comm
  induction proofs generalizing publicInputs results with
  | nil =>
    obtain rfl := List.length_eq_zero_iff.mp lengths.symm
    cases results <;> simp
  | cons proof proofs ih =>
    cases publicInputs with
    | nil => cases lengths
    | cons inputs publicInputs =>
      cases results with
      | nil => simp [List.replicate_succ]
      | cons result rest =>
        have others := ih publicInputs rest (Nat.succ.inj lengths)
        simp only [List.zipWith_cons_cons, List.map_cons, List.cons.injEq, single, others,
          List.forall_mem_cons, List.length_cons, List.replicate_succ]
        tauto

end Placeholder

end ProtonChain.Solidity.ProtonZKVerifier
