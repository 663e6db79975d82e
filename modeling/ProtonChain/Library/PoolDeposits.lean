import Mathlib.Data.Nat.Sqrt
import ProtonChain.Library.ConstantProduct

/-! Deposits into pools, exactly.

The first deposit mints the root of the product of its amounts, a later one what the scarcer of the
two amounts is worth. Words that compute this without overflow compute these numbers.
-/

set_option autoImplicit false

namespace ConstantProduct

open Checked

namespace Pool

def empty : Pool := ⟨0, 0, 0⟩

def minted (pool : Pool) (amountA amountB : Nat) : Nat :=
  if pool.shares = 0 then (amountA * amountB).sqrt
  else min (amountA * pool.shares / pool.reserveA) (amountB * pool.shares / pool.reserveB)

def joined (pool : Pool) (amountA amountB : Nat) : Pool where
  reserveA := pool.reserveA + amountA
  reserveB := pool.reserveB + amountB
  shares := pool.shares + pool.minted amountA amountB

theorem minted_nothing (pool : Pool) : pool.minted 0 0 = 0 := by
  rw [minted]
  split
  · exact Nat.sqrt_zero
  · simp

/-- A deposit changes a pool unless it is of nothing. -/
theorem joined_eq_self_iff (pool : Pool) (amountA amountB : Nat) :
    pool.joined amountA amountB = pool ↔ amountA = 0 ∧ amountB = 0 := by
  constructor
  · intro same
    have first := congrArg Pool.reserveA same
    have second := congrArg Pool.reserveB same
    simp only [joined] at first second
    omega
  · rintro ⟨rfl, rfl⟩
    rw [joined, minted_nothing, Nat.add_zero, Nat.add_zero, Nat.add_zero]

/-- Two deposits that are made or not leave the same unless one alone is made, of something. -/
theorem joined_alike_iff (pool : Pool) (amountA amountB : Nat) (first second : Prop)
    [Decidable first] [Decidable second] :
    (if first then pool.joined amountA amountB else pool) =
        (if second then pool.joined amountA amountB else pool) ↔
      amountA = 0 ∧ amountB = 0 ∨ (first ↔ second) := by
  by_cases made : first
  · by_cases made' : second
    · simp [made, made']
    · simp [made, made', joined_eq_self_iff]
  · by_cases made' : second
    · rw [if_neg made, if_pos made', eq_comm, joined_eq_self_iff]
      simp [made, made']
    · simp [made, made']

end Pool

section Words
variable {E : Type} {w : Nat}

/-- The smaller of two quotes in words. -/
theorem toNat_smaller (first second : BitVec w) :
    (if first < second then first else second).toNat = min first.toNat second.toNat := by
  split
  next less =>
    rw [Nat.min_eq_left (Nat.le_of_lt (BitVec.lt_def.mp less))]
  next more =>
    rw [BitVec.lt_def, Nat.not_lt] at more
    rw [Nat.min_eq_right more]

/-- A later deposit, quoted in words. -/
theorem minted_of_quotes {pool : Pool} (shared : pool.shares ≠ 0)
    {amountA amountB reserveA reserveB total quoteA quoteB : BitVec w}
    (same : pool = ⟨reserveA.toNat, reserveB.toNat, total.toNat⟩)
    (first : (mulDiv amountA total reserveA : Outcome E _) = .ok quoteA)
    (second : (mulDiv amountB total reserveB : Outcome E _) = .ok quoteB) :
    (if quoteA < quoteB then quoteA else quoteB).toNat =
      pool.minted amountA.toNat amountB.toNat := by
  rw [toNat_smaller, Pool.minted, if_neg shared, (mulDiv_eq_ok.mp first).2.2,
    (mulDiv_eq_ok.mp second).2.2, same]

end Words

end ConstantProduct
