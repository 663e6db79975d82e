import Mathlib.Algebra.BigOperators.Group.Finset.Basic
import Mathlib.Algebra.BigOperators.Group.Finset.Piecewise
import Mathlib.Algebra.BigOperators.Ring.Finset
import Mathlib.Algebra.Order.BigOperators.Group.Finset
import Mathlib.Data.Nat.ModEq

/-! Shares of a whole, rounded down to a unit.

A share is first rounded to the unit and then taken of an amount, so it is rounded
twice. Shares of holders who own at most the whole never add up to more than the amount.
-/

set_option autoImplicit false

namespace Shares

/-! ## One share -/

section Portion
variable (unit : Nat)

/-- The part of the amount that goes to the holder of a weight out of the total. -/
def portion (weight total amount : Nat) : Nat := weight * unit / total * amount / unit

@[simp] theorem portion_zero_weight (total amount : Nat) : portion unit 0 total amount = 0 := by
  simp [portion]

theorem portion_mono (weight total : Nat) {amount amount' : Nat} (more : amount ≤ amount') :
    portion unit weight total amount ≤ portion unit weight total amount' :=
  Nat.div_le_div_right (Nat.mul_le_mul_left _ more)

theorem portion_anti (weight amount : Nat) {total total' : Nat} (positive : 0 < total)
    (more : total ≤ total') :
    portion unit weight total' amount ≤ portion unit weight total amount :=
  Nat.div_le_div_right (Nat.mul_le_mul_right amount (Nat.div_le_div_left more positive))

end Portion

/-! ## All shares -/

section Sums
variable {K : Type} (value : K → Nat)

theorem sum_div_le (divisor : Nat) (holders : Finset K) :
    ∑ holder ∈ holders, value holder / divisor ≤ (∑ holder ∈ holders, value holder) / divisor := by
  classical
  induction holders using Finset.induction with
  | empty => simp
  | insert holder rest absent ih =>
    rw [Finset.sum_insert absent, Finset.sum_insert absent]
    exact (Nat.add_le_add_left ih _).trans Nat.div_add_div_le_add_div

theorem sum_portion_le (unit total amount : Nat) (holders : Finset K)
    (fits : ∑ holder ∈ holders, value holder ≤ total) :
    ∑ holder ∈ holders, portion unit (value holder) total amount ≤ amount := by
  have units : ∑ holder ∈ holders, value holder * unit / total ≤ unit :=
    calc ∑ holder ∈ holders, value holder * unit / total
      _ ≤ (∑ holder ∈ holders, value holder * unit) / total := sum_div_le _ total holders
      _ = (∑ holder ∈ holders, value holder) * unit / total := by rw [Finset.sum_mul]
      _ ≤ total * unit / total := Nat.div_le_div_right (Nat.mul_le_mul_right unit fits)
      _ ≤ unit := Nat.div_le_of_le_mul (Nat.le_refl _)
  calc ∑ holder ∈ holders, value holder * unit / total * amount / unit
    _ ≤ (∑ holder ∈ holders, value holder * unit / total * amount) / unit :=
      sum_div_le _ unit holders
    _ = (∑ holder ∈ holders, value holder * unit / total) * amount / unit := by
      rw [Finset.sum_mul]
    _ ≤ unit * amount / unit := Nat.div_le_div_right (Nat.mul_le_mul_right amount units)
    _ ≤ amount := Nat.div_le_of_le_mul (Nat.le_refl _)

theorem le_of_bounded {bound : Nat} (bounded : ∀ holders, ∑ k ∈ holders, value k ≤ bound)
    (key : K) : value key ≤ bound := by
  have single := bounded {key}
  rwa [Finset.sum_singleton] at single

variable [DecidableEq K]

/-- A bound on every sum is kept when one value and the bound grow by the same. -/
theorem sum_update_add_le {bound : Nat} (bounded : ∀ holders, ∑ k ∈ holders, value k ≤ bound)
    (key : K) (amount : Nat) (holders : Finset K) :
    ∑ k ∈ holders, Function.update value key (value key + amount) k ≤ bound + amount := by
  by_cases member : key ∈ holders
  · have before := Finset.add_sum_erase holders value member
    have within := bounded holders
    rw [Finset.sum_update_of_mem member, Finset.sdiff_singleton_eq_erase]
    omega
  · rw [Finset.sum_update_of_notMem member]
    exact (bounded holders).trans (Nat.le_add_right _ _)

/-- A bound on every sum is kept when one value and the bound fall by the same. -/
theorem sum_update_sub_le {bound : Nat} (bounded : ∀ holders, ∑ k ∈ holders, value k ≤ bound)
    (key : K) {amount : Nat} (owned : amount ≤ value key) (holders : Finset K) :
    ∑ k ∈ holders, Function.update value key (value key - amount) k ≤ bound - amount := by
  -- the sum without the key leaves room for its whole value
  have within := bounded (insert key (holders.erase key))
  rw [Finset.sum_insert (Finset.notMem_erase key holders)] at within
  by_cases member : key ∈ holders
  · rw [Finset.sum_update_of_mem member, Finset.sdiff_singleton_eq_erase]
    omega
  · rw [Finset.sum_update_of_notMem member]
    rw [Finset.erase_eq_of_notMem member] at within
    omega

end Sums

end Shares
