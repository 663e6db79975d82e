import Mathlib.Data.Nat.Sqrt
import Mathlib.Tactic.Linarith
import Mathlib.Order.Bounds.Basic
import ProtonChain.Library.Checked

/-! Newton's iteration for the integer square root.

No guess falls below the root, and a guess that the iteration does not lower is the root.
The loops are over machine words whose sums may not fit; from a start at the radicand
itself they always do.
-/

set_option autoImplicit false

namespace Newton

open Checked

/-! ## Guesses -/

def improve (x guess : Nat) : Nat := (guess + x / guess) / 2

theorem improve_self {x : Nat} (positive : 0 < x) : improve x x = (x + 1) / 2 := by
  rw [improve, Nat.div_self positive]

theorem sqrt_le_improve {x guess : Nat} (positive : 0 < guess) : x.sqrt ≤ improve x guess := by
  rw [improve, Nat.le_div_iff_mul_le Nat.two_pos]
  by_contra low
  have square := Nat.sqrt_le x
  have above := Nat.lt_mul_div_succ x positive
  -- twice the root is more than a guess and its quotient, while the square is not
  have close : x / guess + 1 + guess ≤ 2 * x.sqrt := by omega
  nlinarith [sq_nonneg ((x.sqrt : Int) - guess)]

theorem le_sqrt_of_le_improve {x guess : Nat} (settled : guess ≤ improve x guess) :
    guess ≤ x.sqrt := by
  rw [improve, Nat.le_div_iff_mul_le Nat.two_pos] at settled
  rcases Nat.eq_zero_or_pos guess with rfl | positive
  · exact Nat.zero_le _
  · -- a guess that is not lowered is no more than its quotient
    have below : guess ≤ x / guess := by omega
    rw [Nat.le_div_iff_mul_le positive] at below
    exact Nat.le_sqrt.mpr below

/-- A guess and its quotient are together no more than one and the radicand. -/
theorem add_div_le {x guess : Nat} (positive : 0 < guess) (within : guess ≤ x) :
    guess + x / guess ≤ x + 1 := by
  have quotient : 1 ≤ x / guess := Nat.div_pos within positive
  have product := Nat.mul_div_le x guess
  nlinarith

/-! ## Loops on words -/

section Loop
variable {E : Type} {w : Nat} {x : BitVec w} {loop : BitVec w → BitVec w → Outcome E (BitVec w)}

/-- A loop over a next guess and the present one that goes on while the next is smaller. -/
structure Loop (x : BitVec w) (loop : BitVec w → BitVec w → Outcome E (BitVec w)) : Prop where
  stops : ∀ {next guess : BitVec w}, ¬ next < guess → loop next guess = .ok guess
  turns : ∀ {next guess : BitVec w}, next < guess → 0 < next.toNat →
    next.toNat + x.toNat / next.toNat < 2 ^ w →
    ∃ after : BitVec w, after.toNat = improve x.toNat next.toNat ∧
      loop next guess = loop after next

/-- The loop ends with the root; the induction is on the present guess. -/
theorem Loop.exact (newton : Loop x loop) (small : x.toNat + 1 < 2 ^ w) (bound : Nat) :
    ∀ {next guess : BitVec w}, guess.toNat ≤ bound → next.toNat = improve x.toNat guess.toNat →
      0 < guess.toNat → guess.toNat ≤ x.toNat → x.toNat.sqrt ≤ guess.toNat →
      ∃ root, loop next guess = .ok root ∧ root.toNat = x.toNat.sqrt := by
  induction bound with
  | zero =>
    intro next guess bounded _ positive _ _
    omega
  | succ bound ih =>
    intro next guess bounded improved positive within above
    have nextAbove : x.toNat.sqrt ≤ next.toNat := improved ▸ sqrt_le_improve positive
    -- a lower guess is still no less than the root, so it is not zero and its turn fits
    by_cases lower : next < guess
    · have falls : next.toNat < guess.toNat := BitVec.lt_def.mp lower
      have rootPositive : 0 < x.toNat.sqrt := Nat.sqrt_pos.mpr (by omega)
      have nextPositive : 0 < next.toNat := by omega
      have nextWithin : next.toNat ≤ x.toNat := by omega
      have sum := add_div_le nextPositive nextWithin
      obtain ⟨after, improved', turned⟩ := newton.turns lower nextPositive (by omega)
      rw [turned]
      exact ih (by omega) improved' nextPositive nextWithin nextAbove
    · refine ⟨guess, newton.stops lower, ?_⟩
      have settled : guess.toNat ≤ next.toNat := by
        rw [BitVec.lt_def] at lower
        omega
      exact Nat.le_antisymm (le_sqrt_of_le_improve (improved ▸ settled)) above

/-- A start at the radicand and half its successor. -/
theorem Loop.exact_of_start (newton : Loop x loop) (small : x.toNat + 1 < 2 ^ w)
    {next : BitVec w} (half : next.toNat = (x.toNat + 1) / 2) :
    ∃ root, loop next x = .ok root ∧ root.toNat = x.toNat.sqrt := by
  rcases Nat.eq_zero_or_pos x.toNat with zero | positive
  · refine ⟨x, newton.stops ?_, by rw [zero, Nat.sqrt_zero]⟩
    rw [BitVec.lt_def]
    omega
  · exact newton.exact small x.toNat le_rfl (half.trans (improve_self positive).symm) positive
      le_rfl (Nat.sqrt_le_self _)

end Loop

theorem isGreatest_sqrt (x : Nat) : IsGreatest {root | root * root ≤ x} x.sqrt :=
  ⟨Nat.sqrt_le x, fun _ square => Nat.le_sqrt.mpr square⟩

end Newton
