import ProtonChain.Library.Primality
import ProtonChain.Types

/-! The scalar field of BN254, over which the proofs of the chain are made.

Its order is certified prime from a factorization of its predecessor. It is wide enough for every
balance to be a field element of its own.
-/

set_option autoImplicit false

namespace ProtonChain.Privacy

open Primality

/-- Different `u128` values are different elements. -/
def EmbedsU128 (F : Type) [NatCast F] : Prop :=
  Function.Injective fun value : U128 => (value.toNat : F)

theorem prime_405928799 : Nat.Prime 405928799 := by
  apply prime_of_order 22 [(2, 1), (11, 1), (3691, 1), (4999, 1)]
  · norm_num
  · norm_num
  · norm_num
    reduce_mod_char
  · norm_num
    reduce_mod_char
    norm_num [ofNat_eq_one_iff]

theorem prime_12048837557 : Nat.Prime 12048837557 := by
  apply prime_of_order 2 [(2, 2), (7, 2), (661, 1), (93001, 1)]
  · norm_num
  · norm_num
  · norm_num
    reduce_mod_char
  · norm_num
    reduce_mod_char
    norm_num [ofNat_eq_one_iff]

theorem prime_5156902474397 : Nat.Prime 5156902474397 := by
  apply prime_of_order 2 [(2, 2), (107, 1), (12048837557, 1)]
  · norm_num
  · simp only [List.forall_mem_cons]
    exact ⟨by norm_num, by norm_num, prime_12048837557, nofun⟩
  · norm_num
    reduce_mod_char
  · norm_num
    reduce_mod_char
    norm_num [ofNat_eq_one_iff]

theorem prime_1670836401704629 : Nat.Prime 1670836401704629 := by
  apply prime_of_order 2 [(2, 2), (3, 4), (5156902474397, 1)]
  · norm_num
  · simp only [List.forall_mem_cons]
    exact ⟨by norm_num, by norm_num, prime_5156902474397, nofun⟩
  · norm_num
    reduce_mod_char
  · norm_num
    reduce_mod_char
    norm_num [ofNat_eq_one_iff]

theorem prime_639533339 : Nat.Prime 639533339 := by
  apply prime_of_order 2 [(2, 1), (229, 1), (853, 1), (1637, 1)]
  · norm_num
  · norm_num
  · norm_num
    reduce_mod_char
  · norm_num
    reduce_mod_char
    norm_num [ofNat_eq_one_iff]

theorem prime_65865678001877903 : Nat.Prime 65865678001877903 := by
  apply prime_of_order 5 [(2, 1), (83, 1), (379, 1), (1637, 1), (639533339, 1)]
  · norm_num
  · simp only [List.forall_mem_cons]
    exact ⟨by norm_num, by norm_num, by norm_num, by norm_num, prime_639533339, nofun⟩
  · norm_num
    reduce_mod_char
  · norm_num
    reduce_mod_char
    norm_num [ofNat_eq_one_iff]

theorem prime_13818364434197438864469338081 : Nat.Prime 13818364434197438864469338081 := by
  apply prime_of_order 3 [(2, 5), (5, 1), (823, 1), (1593227, 1), (65865678001877903, 1)]
  · norm_num
  · simp only [List.forall_mem_cons]
    exact ⟨by norm_num, by norm_num, by norm_num, by norm_num, prime_65865678001877903, nofun⟩
  · norm_num
    reduce_mod_char
  · norm_num
    reduce_mod_char
    norm_num [ofNat_eq_one_iff]

def modulus : Nat :=
  21888242871839275222246405745257275088548364400416034343698204186575808495617

theorem modulus_prime : modulus.Prime := by
  unfold modulus
  apply prime_of_order 5 [(2, 28), (3, 2), (13, 1), (29, 1), (983, 1), (11003, 1), (237073, 1),
    (405928799, 1), (1670836401704629, 1), (13818364434197438864469338081, 1)]
  · norm_num
  · simp only [List.forall_mem_cons]
    exact ⟨by norm_num, by norm_num, by norm_num, by norm_num, by norm_num, by norm_num,
      by norm_num, prime_405928799, prime_1670836401704629, prime_13818364434197438864469338081,
      nofun⟩
  · norm_num
    reduce_mod_char
  · norm_num
    reduce_mod_char
    norm_num [ofNat_eq_one_iff]

instance : Fact modulus.Prime := ⟨modulus_prime⟩

abbrev FrBn254 := ZMod modulus

/-- Integers of 192 bits are elements of their own. -/
theorem natCast_inj_of_lt {first second : Nat} (firstFits : first < 2 ^ 192)
    (secondFits : second < 2 ^ 192) : (first : FrBn254) = second ↔ first = second := by
  have wide : 2 ^ 192 ≤ modulus := by norm_num [modulus]
  rw [ZMod.natCast_eq_natCast_iff', Nat.mod_eq_of_lt (firstFits.trans_le wide),
    Nat.mod_eq_of_lt (secondFits.trans_le wide)]

theorem frBn254_embedsU128 : EmbedsU128 FrBn254 := by
  intro first second same
  have narrow : (2 : Nat) ^ 128 ≤ 2 ^ 192 := by norm_num
  apply BitVec.eq_of_toNat_eq
  exact (natCast_inj_of_lt (first.isLt.trans_le narrow) (second.isLt.trans_le narrow)).mp same

end ProtonChain.Privacy
