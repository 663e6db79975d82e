import Mathlib.Algebra.BigOperators.Group.Finset.Basic
import Mathlib.Algebra.Order.BigOperators.Group.Finset

/-! Overlap of weighted quorums.

Two parts of a whole overlap at least in what their weights exceed it by, and
for every pair of weights some whole attains this bound.
-/

set_option autoImplicit false

namespace Quorum

variable {A : Type} [DecidableEq A] (weight : A → Nat)

theorem overlap_bound {whole first second : Finset A} (firstIn : first ⊆ whole)
    (secondIn : second ⊆ whole) :
    ∑ a ∈ first, weight a + ∑ a ∈ second, weight a ≤
      ∑ a ∈ whole, weight a + ∑ a ∈ first ∩ second, weight a := by
  rw [← Finset.sum_union_inter]
  exact Nat.add_le_add_right (Finset.sum_le_sum_of_subset (Finset.union_subset firstIn secondIn)) _

/-- Weights above four thirds of the whole overlap in more than a third of it. -/
theorem third_overlap {whole first second : Finset A} (firstIn : first ⊆ whole)
    (secondIn : second ⊆ whole)
    (large : 4 * ∑ a ∈ whole, weight a < 3 * (∑ a ∈ first, weight a + ∑ a ∈ second, weight a)) :
    ∑ a ∈ whole, weight a < 3 * ∑ a ∈ first ∩ second, weight a := by
  have bound := overlap_bound weight firstIn secondIn
  omega

/-- A split of the whole into the shared part, the two private parts and the rest. -/
structure Split (whole first second : Nat) where
  shared : Nat
  onlyFirst : Nat
  onlySecond : Nat
  rest : Nat
  sum : shared + onlyFirst + onlySecond + rest = whole
  first_eq : shared + onlyFirst = first
  second_eq : shared + onlySecond = second

/-- The split whose shared part is as small as the two weights allow. -/
def leastShared {whole first second : Nat} (firstIn : first ≤ whole) (secondIn : second ≤ whole) :
    Split whole first second where
  shared := first + second - whole
  onlyFirst := first - (first + second - whole)
  onlySecond := second - (first + second - whole)
  rest := whole - (first + second)
  sum := by omega
  first_eq := by omega
  second_eq := by omega

end Quorum
