import ProtonChain.Library.FiniteMap

/-! Mappings that read zero where nothing was written, and tables of such rows.

Sums are natural numbers, so they say nothing about the width of the words: a bound on
a sum is a fact to prove. Each law accounts for a write by the word it replaces.
-/

set_option autoImplicit false

namespace Mapping

/-! ## One row -/

section Row
variable {K : Type} [DecidableEq K] {w : Nat} (row : Finmap fun _ : K => BitVec w)

def read (key : K) : BitVec w := (row.lookup key).getD 0

def sum : Nat := FiniteMap.total BitVec.toNat row

theorem weightAt_toNat (key : K) :
    FiniteMap.weightAt BitVec.toNat row key = (read row key).toNat :=
  FiniteMap.weightAt_getD BitVec.toNat row key 0 rfl

theorem read_insert (key : K) (value : BitVec w) (other : K) :
    read (row.insert key value) other = if other = key then value else read row other := by
  rw [read, FiniteMap.lookup_insert]
  split <;> rfl

theorem sum_insert (key : K) (value : BitVec w) :
    sum (row.insert key value) + (read row key).toNat = sum row + value.toNat := by
  rw [← weightAt_toNat]
  exact FiniteMap.total_insert BitVec.toNat row key value

end Row

/-! ## A table of rows -/

section Table
variable {I K : Type} [DecidableEq I] [DecidableEq K] {w : Nat}
  (table : Finmap fun _ : I => Finmap fun _ : K => BitVec w)

def row (index : I) : Finmap fun _ : K => BitVec w := (table.lookup index).getD ∅

def cell (index : I) (key : K) : BitVec w := read (row table index) key

def write (index : I) (key : K) (value : BitVec w) :
    Finmap fun _ : I => Finmap fun _ : K => BitVec w :=
  table.insert index ((row table index).insert key value)

def tableSum : Nat := FiniteMap.total sum table

theorem row_write (index : I) (key : K) (value : BitVec w) (other : I) :
    row (write table index key value) other =
      if other = index then (row table index).insert key value else row table other := by
  rw [row, write, FiniteMap.lookup_insert]
  split <;> rfl

theorem cell_write (index : I) (key : K) (value : BitVec w) (other : I) (other' : K) :
    cell (write table index key value) other other' =
      if other = index ∧ other' = key then value else cell table other other' := by
  rw [cell, row_write]
  by_cases same : other = index
  · subst same
    rw [if_pos rfl, read_insert]
    simp [cell]
  · simp [same, cell]

theorem sum_row_write (index : I) (key : K) (value : BitVec w) (other : I) :
    sum (row (write table index key value) other) +
        (if other = index then (cell table index key).toNat else 0) =
      sum (row table other) + if other = index then value.toNat else 0 := by
  rw [row_write]
  split
  next same =>
    subst same
    exact sum_insert (row table other) key value
  · rfl

theorem tableSum_write (index : I) (key : K) (value : BitVec w) :
    tableSum (write table index key value) + (cell table index key).toNat =
      tableSum table + value.toNat := by
  have outer := FiniteMap.total_insert sum table index ((row table index).insert key value)
  have inner := sum_insert (row table index) key value
  have old : FiniteMap.weightAt sum table index = sum (row table index) :=
    FiniteMap.weightAt_getD sum table index ∅ rfl
  rw [tableSum, write, tableSum]
  rw [old] at outer
  unfold cell
  omega

end Table

end Mapping
