import ProtonChain.Contracts.Dex
import ProtonChain.Library.Newton
import ProtonChain.Solidity.Dex

/-! The integer square roots of the two exchanges.

Both run Newton's iteration from the radicand and half its successor. They differ in
which of the two variables holds the guess and in the early return at zero.
-/

set_option autoImplicit false

namespace ProtonChain

open Checked Newton

/-! ## One turn -/

section Turn
variable {E : Type} {w : Nat} {x next : BitVec w}

theorem turn_eq_ok (wide : 2 < 2 ^ w) (positive : 0 < next.toNat)
    (fits : next.toNat + x.toNat / next.toNat < 2 ^ w) :
    ∃ after : BitVec w, after.toNat = improve x.toNat next.toNat ∧
      (div x next : Outcome E _) = .ok (x / next) ∧
      (add next (x / next) : Outcome E _) = .ok (next + x / next) ∧
      (add (x / next) next : Outcome E _) = .ok (next + x / next) ∧
      (div (next + x / next) 2 : Outcome E _) = .ok after := by
  have quotient : (x / next).toNat = x.toNat / next.toNat := BitVec.toNat_udiv
  have sum : (next + x / next).toNat = next.toNat + x.toNat / next.toNat := by
    rw [BitVec.toNat_add_of_lt (by rw [quotient]; exact fits), quotient]
  have two : (2 : BitVec w).toNat = 2 := Nat.mod_eq_of_lt wide
  have half : ((next + x / next) / 2).toNat = improve x.toNat next.toNat := by
    rw [BitVec.toNat_udiv, sum, two, improve]
  refine ⟨(next + x / next) / 2, half, ?_, ?_, ?_, ?_⟩
  · exact div_eq_ok.mpr ⟨positive, quotient⟩
  · rw [add_eq_ok, sum, quotient]
  · rw [add_eq_ok, sum, quotient, Nat.add_comm]
  · rw [div_eq_ok, two]
    exact ⟨Nat.two_pos, two ▸ BitVec.toNat_udiv⟩

/-- The start: half the successor of the radicand. -/
theorem half_successor_eq_ok (wide : 2 < 2 ^ w) (small : x.toNat + 1 < 2 ^ w) :
    (add x 1 : Outcome E _) = .ok (x + 1) ∧
      (div (x + 1) 2 : Outcome E _) = .ok ((x + 1) / 2) ∧
      ((x + 1) / 2).toNat = (x.toNat + 1) / 2 := by
  have one : (1 : BitVec w).toNat = 1 := Nat.mod_eq_of_lt (Nat.lt_of_succ_lt wide)
  have two : (2 : BitVec w).toNat = 2 := Nat.mod_eq_of_lt wide
  have successor : (x + 1).toNat = x.toNat + 1 := by
    rw [BitVec.toNat_add_of_lt (by rw [one]; exact small), one]
  have half : ((x + 1) / 2).toNat = (x.toNat + 1) / 2 := by
    rw [BitVec.toNat_udiv, successor, two]
  refine ⟨?_, ?_, half⟩
  · rw [add_eq_ok, successor, one]
  · rw [div_eq_ok, half, successor, two]
    exact ⟨Nat.two_pos, rfl⟩

end Turn

/-! ## The two loops -/

theorem Contracts.ProtonDEX.sqrtLoop_newton (x : U128) :
    Newton.Loop x (Contracts.ProtonDEX.sqrtLoop x) where
  stops := by
    intro next guess settled
    rw [Contracts.ProtonDEX.sqrtLoop, if_neg settled]
  turns := by
    intro next guess lower positive fits
    obtain ⟨after, improved, quotient, sum, -, half⟩ := turn_eq_ok (by decide) positive fits
    refine ⟨after, improved, ?_⟩
    rw [Contracts.ProtonDEX.sqrtLoop, if_pos lower, quotient]
    rw [ok_bind, sum, ok_bind, half, ok_bind]

theorem Solidity.ProtonDEX.sqrtLoop_newton (x : Solidity.U256) :
    Newton.Loop x (Solidity.ProtonDEX.sqrtLoop x) where
  stops := by
    intro next guess settled
    rw [Solidity.ProtonDEX.sqrtLoop, if_neg settled]
  turns := by
    intro next guess lower positive fits
    obtain ⟨after, improved, quotient, -, sum, half⟩ := turn_eq_ok (by decide) positive fits
    refine ⟨after, improved, ?_⟩
    rw [Solidity.ProtonDEX.sqrtLoop, if_pos lower, quotient]
    rw [ok_bind, sum, ok_bind, half, ok_bind]

/-! ## Roots -/

theorem Contracts.ProtonDEX.sqrt_eq_ok {x : U128} (small : x.toNat + 1 < 2 ^ 128) :
    ∃ root, Contracts.ProtonDEX.sqrt x = .ok root ∧ root.toNat = x.toNat.sqrt := by
  by_cases zero : x = 0
  · subst zero
    exact ⟨0, rfl, rfl⟩
  · obtain ⟨successor, half, start⟩ := half_successor_eq_ok (E := DexPanic) (by decide) small
    rw [Contracts.ProtonDEX.sqrt, if_neg zero, successor, ok_bind, half, ok_bind]
    exact (sqrtLoop_newton x).exact_of_start small start

theorem Solidity.ProtonDEX.sqrt_eq_ok {x : Solidity.U256} (small : x.toNat + 1 < 2 ^ 256) :
    ∃ root, Solidity.ProtonDEX.sqrt x = .ok root ∧ root.toNat = x.toNat.sqrt := by
  obtain ⟨successor, half, start⟩ := half_successor_eq_ok (E := DexError) (by decide) small
  rw [Solidity.ProtonDEX.sqrt, successor, ok_bind, half, ok_bind]
  exact (sqrtLoop_newton x).exact_of_start small start

/-- Below the largest word both square roots succeed, with the greatest root whose
square does not pass the radicand. -/
theorem square_roots_are_exact :
    (∀ x : U128, x.toNat + 1 < 2 ^ 128 → ∃ root, Contracts.ProtonDEX.sqrt x = .ok root ∧
      IsGreatest {r : Nat | r * r ≤ x.toNat} root.toNat) ∧
    ∀ x : Solidity.U256, x.toNat + 1 < 2 ^ 256 → ∃ root, Solidity.ProtonDEX.sqrt x = .ok root ∧
      IsGreatest {r : Nat | r * r ≤ x.toNat} root.toNat := by
  constructor
  · intro x small
    obtain ⟨root, computed, exact⟩ := Contracts.ProtonDEX.sqrt_eq_ok small
    exact ⟨root, computed, exact ▸ isGreatest_sqrt x.toNat⟩
  · intro x small
    obtain ⟨root, computed, exact⟩ := Solidity.ProtonDEX.sqrt_eq_ok small
    exact ⟨root, computed, exact ▸ isGreatest_sqrt x.toNat⟩

theorem square_roots_of_ten :
    (∃ root, Contracts.ProtonDEX.sqrt 10 = .ok root ∧
      IsGreatest {r : Nat | r * r ≤ 10} root.toNat) ∧
    ∃ root, Solidity.ProtonDEX.sqrt 10 = .ok root ∧
      IsGreatest {r : Nat | r * r ≤ 10} root.toNat :=
  ⟨square_roots_are_exact.1 10 (by decide), square_roots_are_exact.2 10 (by decide)⟩

end ProtonChain
