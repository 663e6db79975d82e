import ProtonChain.Solidity.ZKVerifier

/-! When the verifier answers at all.

The public inputs are combined with the points of the key in checked arithmetic of words,
coordinate by coordinate. No term is negative, so the whole combination fits a word exactly
if every product and every sum on the way does.
-/

set_option autoImplicit false

namespace ProtonChain.Solidity.ProtonZKVerifier

open Checked

/-! ## Points -/

theorem g1Add_eq_ok {a b sum : Point} :
    g1Add a b = .ok sum ↔
      sum.1.toNat = a.1.toNat + b.1.toNat ∧ sum.2.toNat = a.2.toNat + b.2.toNat := by
  simp only [g1Add, bind_eq_ok, add_eq_ok, pure_eq_ok]
  constructor
  · rintro ⟨x, first, y, second, rfl⟩
    exact ⟨first, second⟩
  · rintro ⟨first, second⟩
    exact ⟨sum.1, first, sum.2, second, rfl⟩

theorem g1ScalarMul_eq_ok {point product : Point} {scalar : U256} :
    g1ScalarMul point scalar = .ok product ↔
      product.1.toNat = point.1.toNat * scalar.toNat ∧
        product.2.toNat = point.2.toNat * scalar.toNat := by
  simp only [g1ScalarMul, bind_eq_ok, mul_eq_ok, pure_eq_ok]
  constructor
  · rintro ⟨x, first, y, second, rfl⟩
    exact ⟨first, second⟩
  · rintro ⟨first, second⟩
    exact ⟨product.1, first, product.2, second, rfl⟩

/-! ## Combinations -/

/-- One coordinate of the points, weighted by the inputs. -/
def combined (coordinate : Point → U256) : List Point → List U256 → Nat
  | point :: ic, input :: publicInputs =>
    (coordinate point).toNat * input.toNat + combined coordinate ic publicInputs
  | _, _ => 0

/-- Both coordinates fit a word. The first point of the key is weighted by one. -/
def CoordinatesFit (ic : List Point) (publicInputs : List U256) : Prop :=
  combined Prod.fst ic (1 :: publicInputs) < 2 ^ 256 ∧
    combined Prod.snd ic (1 :: publicInputs) < 2 ^ 256

theorem exists_word {value : Nat} (small : value < 2 ^ 256) : ∃ word : U256, word.toNat = value :=
  ⟨BitVec.ofNat 256 value, by rw [BitVec.toNat_ofNat, Nat.mod_eq_of_lt small]⟩

/-- The loop goes through where the sum it would end with fits. -/
theorem combineInputs_succeeds_iff {ic : List Point} {publicInputs : List U256}
    (lengths : ic.length = publicInputs.length) (vkX : Point) :
    (∃ result, combineInputs ic publicInputs vkX = .ok result) ↔
      vkX.1.toNat + combined Prod.fst ic publicInputs < 2 ^ 256 ∧
        vkX.2.toNat + combined Prod.snd ic publicInputs < 2 ^ 256 := by
  induction publicInputs generalizing ic vkX with
  | nil =>
    obtain rfl := List.length_eq_zero_iff.mp lengths
    exact iff_of_true ⟨vkX, by simp only [combineInputs]⟩ ⟨vkX.1.isLt, vkX.2.isLt⟩
  | cons input publicInputs ih =>
    cases ic with
    | nil => cases lengths
    | cons point ic =>
      simp only [combineInputs, combined, bind_eq_ok, g1ScalarMul_eq_ok, g1Add_eq_ok]
      constructor
      · rintro ⟨result, term, ⟨first, second⟩, next, ⟨sum, sum'⟩, rest⟩
        have fits := (ih (Nat.succ_inj.mp lengths) next).mp ⟨result, rest⟩
        omega
      · rintro ⟨first, second⟩
        -- no term and no partial sum is larger than the whole
        obtain ⟨x, productX⟩ : ∃ x : U256, x.toNat = point.1.toNat * input.toNat :=
          exists_word (by omega)
        obtain ⟨y, productY⟩ : ∃ y : U256, y.toNat = point.2.toNat * input.toNat :=
          exists_word (by omega)
        obtain ⟨nextX, sumX⟩ : ∃ nextX : U256, nextX.toNat = vkX.1.toNat + x.toNat :=
          exists_word (by omega)
        obtain ⟨nextY, sumY⟩ : ∃ nextY : U256, nextY.toNat = vkX.2.toNat + y.toNat :=
          exists_word (by omega)
        have within : nextX.toNat + combined Prod.fst ic publicInputs < 2 ^ 256 ∧
            nextY.toNat + combined Prod.snd ic publicInputs < 2 ^ 256 := by omega
        obtain ⟨result, rest⟩ := (ih (Nat.succ_inj.mp lengths) (nextX, nextY)).mpr within
        exact ⟨result, (x, y), ⟨productX, productY⟩, (nextX, nextY), ⟨sumX, sumY⟩, rest⟩

theorem verifyProof_succeeds_iff (vk : VerifyingKey) {publicInputs : List U256} (proof : Proof)
    (points : vk.ic.length = publicInputs.length + 1) :
    (∃ accepted, verifyProof vk proof publicInputs = .ok accepted) ↔
      CoordinatesFit vk.ic publicInputs := by
  obtain ⟨vkX, ic, key⟩ := List.exists_cons_of_length_eq_add_one points
  rw [key, List.length_cons, Nat.succ_inj] at points
  have loop := combineInputs_succeeds_iff points vkX
  have one : (1 : U256).toNat = 1 := rfl
  rw [verifyProof, key, CoordinatesFit, combined, combined, one, Nat.mul_one, Nat.mul_one, ← loop]
  simp only [bind_eq_ok, pure_eq_ok]
  constructor
  · rintro ⟨-, result, computed, -⟩
    exact ⟨result, computed⟩
  · rintro ⟨result, computed⟩
    exact ⟨true, result, computed, rfl⟩

section Calls
variable (keccak256 : Bytes → List.Vector UInt8 32)

theorem decodeProof_succeeds {proof : Bytes} (long : 256 ≤ proof.length) :
    ∃ decoded, decodeProof proof = .ok decoded := by
  simp only [decodeProof, bind_eq_ok, ensure_eq_ok, pure_eq_ok]
  exact ⟨_, (), long, rfl⟩

/-- Every entry point answers, on a key that is set with a point for every public input and
one more and on a proof that is long enough, exactly if the combination of the points with
the inputs fits a word in both coordinates. -/
theorem call_completes_iff (alpha1 : Point) (beta2 gamma2 delta2 : Point × Point)
    (ic : List Point) (statement : Statement) (proof : Bytes)
    (points : ic.length = (statement.publicInputs keccak256).length + 1)
    (long : 256 ≤ proof.length) :
    (∃ accepted, statement.call keccak256 verifyProof
        (setVerificationKey alpha1 beta2 gamma2 delta2 ic) proof = .ok accepted) ↔
      CoordinatesFit ic (statement.publicInputs keccak256) := by
  obtain ⟨decoded, decodes⟩ := decodeProof_succeeds long
  have check := verifyProof_succeeds_iff ⟨alpha1, beta2, gamma2, delta2, ic⟩ decoded points
  rw [← check, Statement.call_eq, verify]
  simp only [setVerificationKey, bind_eq_ok, ensure_eq_ok, decodes, Except.ok.injEq]
  constructor
  · rintro ⟨accepted, -, -, _, rfl, answered⟩
    exact ⟨accepted, answered⟩
  · rintro ⟨accepted, answered⟩
    exact ⟨accepted, (), trivial, decoded, rfl, answered⟩

end Calls

namespace Sample

def generator : Point := (1, 2)

def proof : Bytes := List.replicate 256 0

def small (byte : UInt8) : Hash := ⟨⟨List.replicate 31 0 ++ [byte], rfl⟩⟩

def largest : Hash := ⟨List.Vector.replicate 32 255⟩

end Sample

theorem completion_sample :
    ∃ accepted, Statement.call ProtonChain.Sample.sha3 verifyProof
      (setVerificationKey Sample.generator (Sample.generator, Sample.generator)
        (Sample.generator, Sample.generator) (Sample.generator, Sample.generator)
        (List.replicate 4 Sample.generator)) Sample.proof
      (.transfer (Sample.small 3) (Sample.small 5) (Sample.small 200)) = .ok accepted :=
  (call_completes_iff ProtonChain.Sample.sha3 Sample.generator (Sample.generator, Sample.generator)
    (Sample.generator, Sample.generator) (Sample.generator, Sample.generator)
    (List.replicate 4 Sample.generator)
    (.transfer (Sample.small 3) (Sample.small 5) (Sample.small 200)) Sample.proof (by decide)
    List.length_replicate.ge).mpr ⟨by decide +kernel, by decide +kernel⟩

/-- Twice the largest nullifier does not fit a word, so its transfer reverts. -/
theorem largest_nullifier_reverts :
    Statement.call ProtonChain.Sample.sha3 verifyProof
      (setVerificationKey Sample.generator (Sample.generator, Sample.generator)
        (Sample.generator, Sample.generator) (Sample.generator, Sample.generator)
        (List.replicate 4 Sample.generator)) Sample.proof
      (.transfer Sample.largest Hash.zero Hash.zero) = .error .overflow := by
  decide +kernel

end ProtonChain.Solidity.ProtonZKVerifier
