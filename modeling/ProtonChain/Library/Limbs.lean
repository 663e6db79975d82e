import Mathlib.Algebra.Order.Ring.Nat
import Mathlib.Data.List.Basic
import Mathlib.Tactic.Ring

/-! Numbers of several words, the lowest word first.

Addition and subtraction of words report their overflow, and two of them in a row carry at
most one into the next word. Two numbers compare by the highest word in which they differ,
while their lists of words compare by the lowest.
-/

set_option autoImplicit false

namespace Limbs

variable {w : Nat}

def value : List (BitVec w) → Nat
  | [] => 0
  | limb :: rest => limb.toNat + 2 ^ w * value rest

theorem value_lt (limbs : List (BitVec w)) : value limbs < 2 ^ (w * limbs.length) := by
  induction limbs with
  | nil => exact Nat.one_pos
  | cons limb rest ih =>
    have small := limb.isLt
    calc value (limb :: rest)
        < 2 ^ w * (value rest + 1) := by rw [value, Nat.mul_add, Nat.mul_one]; omega
      _ ≤ 2 ^ w * 2 ^ (w * rest.length) := Nat.mul_le_mul_left _ ih
      _ = 2 ^ (w * (limb :: rest).length) := by
        rw [List.length_cons, Nat.mul_add, Nat.mul_one, pow_add, Nat.mul_comm]

/-- The lowest words decide only where the rest is the same. -/
theorem value_cons_lt {limb limb' : BitVec w} {rest rest' : List (BitVec w)} :
    value (limb :: rest) < value (limb' :: rest') ↔
      value rest < value rest' ∨ value rest = value rest' ∧ limb < limb' := by
  have small := limb.isLt
  have small' := limb'.isLt
  rw [value, value, BitVec.lt_def]
  rcases Nat.lt_trichotomy (value rest) (value rest') with below | same | above
  · have gap := Nat.mul_le_mul_left (2 ^ w) (Nat.succ_le_of_lt below)
    rw [Nat.mul_succ] at gap
    exact iff_of_true (by omega) (.inl below)
  · rw [same, Nat.add_lt_add_iff_right]
    simp
  · have gap := Nat.mul_le_mul_left (2 ^ w) (Nat.succ_le_of_lt above)
    rw [Nat.mul_succ] at gap
    exact iff_of_false (by omega) (by omega)

theorem value_injective {first second : List (BitVec w)} (lengths : first.length = second.length)
    (same : value first = value second) : first = second := by
  induction first generalizing second with
  | nil => exact (List.length_eq_zero_iff.mp lengths.symm).symm
  | cons limb first ih =>
    cases second with
    | nil => nomatch lengths
    | cons limb' second =>
      have small := limb.isLt
      have small' := limb'.isLt
      rw [value, value] at same
      have limbs : limb = limb' := by
        have residue := congrArg (· % 2 ^ w) same
        simp only [Nat.add_mul_mod_self_left, Nat.mod_eq_of_lt small,
          Nat.mod_eq_of_lt small'] at residue
        exact BitVec.eq_of_toNat_eq residue
      subst limbs
      have rests : value first = value second :=
        Nat.eq_of_mul_eq_mul_left (Nat.two_pow_pos w) (Nat.add_left_cancel same)
      rw [ih (Nat.succ_inj.mp lengths) rests]

/-! ## Comparison by one word -/

section Comparison
variable {first second : List (BitVec w)} {position : Nat} {limb limb' : BitVec w}

/-- Lists of words compare by the lowest word in which they differ. -/
theorem lt_iff_lowest (here : first[position]? = some limb)
    (here' : second[position]? = some limb') (differ : limb ≠ limb')
    (below : ∀ index < position, first[index]? = second[index]?) :
    first < second ↔ limb < limb' := by
  induction position generalizing first second with
  | zero =>
    cases first with
    | nil => nomatch here
    | cons head first =>
      cases second with
      | nil => nomatch here'
      | cons head' second =>
        obtain rfl : head = limb := Option.some.inj here
        obtain rfl : head' = limb' := Option.some.inj here'
        simp [List.cons_lt_cons_iff, differ]
  | succ position ih =>
    cases first with
    | nil => nomatch here
    | cons head first =>
      cases second with
      | nil => nomatch here'
      | cons head' second =>
        obtain rfl : head = head' := Option.some.inj (below 0 (Nat.succ_pos _))
        have rest : first < second ↔ limb < limb' :=
          ih here here' fun index lower => below (index + 1) (Nat.succ_lt_succ lower)
        simp [rest]

/-- Numbers compare by the highest word in which they differ. -/
theorem value_lt_iff_highest (here : first[position]? = some limb)
    (here' : second[position]? = some limb') (differ : limb ≠ limb')
    (above : ∀ index, position < index → first[index]? = second[index]?) :
    value first < value second ↔ limb < limb' := by
  induction position generalizing first second limb limb' with
  | zero =>
    cases first with
    | nil => nomatch here
    | cons head first =>
      cases second with
      | nil => nomatch here'
      | cons head' second =>
        obtain rfl : head = limb := Option.some.inj here
        obtain rfl : head' = limb' := Option.some.inj here'
        have rests : first = second :=
          List.ext_getElem? fun index => above (index + 1) (Nat.succ_pos _)
        simp [value_cons_lt, rests]
  | succ position ih =>
    cases first with
    | nil => nomatch here
    | cons head first =>
      cases second with
      | nil => nomatch here'
      | cons head' second =>
        have rest (index : Nat) (higher : position < index) : first[index]? = second[index]? :=
          above (index + 1) (Nat.succ_lt_succ higher)
        have apart : value first ≠ value second := by
          intro same
          have forward := ih here here' differ rest
          have backward := ih here' here differ.symm fun index higher => (rest index higher).symm
          rw [same] at forward backward
          rcases Nat.lt_or_gt_of_ne (mt BitVec.eq_of_toNat_eq differ) with lower | higher
          · exact absurd (forward.mpr lower) (Nat.lt_irrefl _)
          · exact absurd (backward.mpr higher) (Nat.lt_irrefl _)
        -- the rests differ, so the lowest words do not count
        rw [value_cons_lt, ih here here' differ rest]
        simp [apart]

end Comparison

/-! ## Carries -/

/-- The wrapped sum and whether it wrapped. -/
def overflowingAdd (first second : BitVec w) : BitVec w × Bool :=
  (first + second, decide (2 ^ w ≤ first.toNat + second.toNat))

/-- The wrapped difference and whether it wrapped. -/
def overflowingSub (first second : BitVec w) : BitVec w × Bool :=
  (first - second, decide (first.toNat < second.toNat))

theorem overflowingAdd_exact (first second : BitVec w) :
    (overflowingAdd first second).1.toNat + 2 ^ w * (overflowingAdd first second).2.toNat =
      first.toNat + second.toNat := by
  have small := first.isLt
  have small' := second.isLt
  rw [overflowingAdd, BitVec.toNat_add]
  by_cases wraps : 2 ^ w ≤ first.toNat + second.toNat
  · rw [decide_eq_true wraps, Nat.mod_eq_sub_mod wraps, Nat.mod_eq_of_lt (by omega)]
    simp only [Bool.toNat_true]
    omega
  · rw [decide_eq_false wraps, Nat.mod_eq_of_lt (by omega)]
    rfl

theorem overflowingSub_exact (first second : BitVec w) :
    (overflowingSub first second).1.toNat + second.toNat =
      first.toNat + 2 ^ w * (overflowingSub first second).2.toNat := by
  have small := first.isLt
  have small' := second.isLt
  rw [overflowingSub]
  by_cases wraps : first.toNat < second.toNat
  · rw [decide_eq_true wraps, BitVec.toNat_sub, Nat.mod_eq_of_lt (by omega)]
    simp only [Bool.toNat_true]
    omega
  · rw [decide_eq_false wraps, BitVec.toNat_sub_of_le (Nat.le_of_not_lt wraps)]
    simp only [Bool.toNat_false]
    omega

section Chain
variable (first second : BitVec w) {carry : BitVec w}

/-- At most one of two additions in a row wraps. -/
theorem add_carry_exact (bit : carry.toNat ≤ 1) :
    (overflowingAdd (overflowingAdd first second).1 carry).1.toNat + 2 ^ w *
        ((overflowingAdd first second).2 ||
          (overflowingAdd (overflowingAdd first second).1 carry).2).toNat =
      first.toNat + second.toNat + carry.toNat := by
  have sum := overflowingAdd_exact first second
  have total := overflowingAdd_exact (overflowingAdd first second).1 carry
  have small := first.isLt
  have small' := second.isLt
  cases flag : (overflowingAdd first second).2 with
  | false =>
    rw [flag, Bool.toNat_false] at sum
    rw [Bool.false_or]
    omega
  | true =>
    rw [flag, Bool.toNat_true] at sum
    cases flag' : (overflowingAdd (overflowingAdd first second).1 carry).2 with
    | false =>
      rw [flag', Bool.toNat_false] at total
      rw [Bool.true_or, Bool.toNat_true]
      omega
    | true =>
      -- a wrapped sum is too small to wrap again
      rw [flag', Bool.toNat_true] at total
      omega

theorem sub_borrow_exact (bit : carry.toNat ≤ 1) :
    (overflowingSub (overflowingSub first second).1 carry).1.toNat + second.toNat + carry.toNat =
      first.toNat + 2 ^ w *
        ((overflowingSub first second).2 ||
          (overflowingSub (overflowingSub first second).1 carry).2).toNat := by
  have difference := overflowingSub_exact first second
  have total := overflowingSub_exact (overflowingSub first second).1 carry
  have small := first.isLt
  have small' := second.isLt
  have small'' := (overflowingSub (overflowingSub first second).1 carry).1.isLt
  cases flag : (overflowingSub first second).2 with
  | false =>
    rw [flag, Bool.toNat_false] at difference
    rw [Bool.false_or]
    omega
  | true =>
    rw [flag, Bool.toNat_true] at difference
    cases flag' : (overflowingSub (overflowingSub first second).1 carry).2 with
    | false =>
      rw [flag', Bool.toNat_false] at total
      rw [Bool.true_or, Bool.toNat_true]
      omega
    | true =>
      -- a wrapped difference is too large to wrap again
      rw [flag', Bool.toNat_true] at total
      omega

end Chain

end Limbs
