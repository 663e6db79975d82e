import Mathlib.Data.List.Prime
import Mathlib.NumberTheory.LucasPrimality
import Mathlib.Tactic.ReduceModChar
import Mathlib.Tactic.NormNum.Prime

/-! Primality of large numbers from a factorization of their predecessor.

Where the order of one residue is the predecessor itself, the modulus is prime. The residue's
powers are computed by repeated squaring, and the prime factors are certified the same way until
they are small.
-/

set_option autoImplicit false

namespace Primality

theorem ofNat_eq_one_iff {modulus value : Nat} [value.AtLeastTwo] :
    (ofNat(value) : ZMod modulus) = 1 ↔ value % modulus = 1 % modulus := by
  rw [← ZMod.natCast_eq_natCast_iff' value 1 modulus, Nat.cast_one]
  rfl

/-- The factors are listed with their exponents. -/
theorem prime_of_order {modulus : Nat} (residue : ZMod modulus) (factors : List (Nat × Nat))
    (factored : (factors.map fun factor => factor.1 ^ factor.2).prod = modulus - 1)
    (primes : ∀ factor ∈ factors, factor.1.Prime) (whole : residue ^ (modulus - 1) = 1)
    (proper : ∀ factor ∈ factors, residue ^ ((modulus - 1) / factor.1) ≠ 1) : modulus.Prime := by
  refine lucas_primality modulus residue whole fun divisor prime divides => ?_
  -- a prime divisor of the product is one of the listed primes
  rw [← factored] at divides
  obtain ⟨power, listed, divides⟩ := (Prime.dvd_prod_iff prime.prime).mp divides
  obtain ⟨factor, member, rfl⟩ := List.mem_map.mp listed
  have same : divisor = factor.1 :=
    (Nat.prime_dvd_prime_iff_eq prime (primes factor member)).mp (prime.dvd_of_dvd_pow divides)
  rw [same]
  exact proper factor member

end Primality
