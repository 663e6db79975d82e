import ProtonChain.Vm.Transfer

/-! Transfers against unbounded integers.

The total cost of a transfer wraps before it is compared with the balance, and the credit of
the receiver wraps after the check. A transfer is exact as long as neither happens, or when
even the wrapped cost is too much.
-/

set_option autoImplicit false

namespace ProtonChain.Vm

def fullCost (tx : Transaction) : Nat := tx.value.toNat + tx.gasPrice.toNat * tx.gasLimit.toNat

/-- The sender has paid and the receiver has got what the transaction says. -/
structure PaidInFull (before after : VMState) (tx : Transaction) : Prop where
  covered : fullCost tx ≤ balanceOf before tx.sender
  debited : balanceOf after tx.sender = balanceOf before tx.sender - fullCost tx
  credited : balanceOf after (receiverAddr tx) = balanceOf before (receiverAddr tx) + tx.value.toNat

/-- A transfer succeeds only if it is paid in full. -/
def ExactTransfer (sha3 : Sha3) (vm : ProtonVM) (tx : Transaction) : Prop :=
  (executeTransaction sha3 vm tx).1.success = true →
    PaidInFull vm.state (executeTransaction sha3 vm tx).2.state tx

theorem totalCost_eq_mod (tx : Transaction) : (totalCost tx).toNat = fullCost tx % 2 ^ 128 := by
  rw [totalCost, BitVec.toNat_add, gasCost_eq_mod, Nat.add_mod_mod, fullCost]

section Balances
variable {vm : ProtonVM} {tx : Transaction}

theorem affordable_iff_mod (state : VMState) (tx : Transaction) :
    Affordable state tx ↔ fullCost tx % 2 ^ 128 ≤ balanceOf state tx.sender := by
  rw [Affordable, BitVec.le_def, totalCost_eq_mod, balanceOf]

/-- The debit takes the wrapped cost. -/
theorem transferred_balance_sender (distinct : receiverAddr tx ≠ tx.sender)
    (paid : Affordable vm.state tx) :
    balanceOf (transferred vm tx).state tx.sender + fullCost tx % 2 ^ 128 =
      balanceOf vm.state tx.sender := by
  rw [balanceOf, transferred_sender vm tx distinct, ← totalCost_eq_mod]
  exact debit_toNat paid

theorem transferred_balance_receiver (vm : ProtonVM) (tx : Transaction) :
    balanceOf (transferred vm tx).state (receiverAddr tx) =
      (balanceOf vm.state (receiverAddr tx) + tx.value.toNat) % 2 ^ 128 := by
  rw [balanceOf, transferred_receiver]
  exact BitVec.toNat_add _ _

theorem transferred_paidInFull_iff (distinct : receiverAddr tx ≠ tx.sender)
    (paid : Affordable vm.state tx) :
    PaidInFull vm.state (transferred vm tx).state tx ↔ AmountsFit vm.state tx := by
  have debit := transferred_balance_sender distinct paid
  have credit := transferred_balance_receiver vm tx
  have bound : balanceOf vm.state tx.sender < 2 ^ 128 := (vm.state.account tx.sender).balance.isLt
  constructor
  · intro exact
    have credited := exact.credited
    have limit : balanceOf (transferred vm tx).state (receiverAddr tx) < 2 ^ 128 :=
      ((transferred vm tx).state.account (receiverAddr tx)).balance.isLt
    rw [credited] at limit
    exact ⟨exact.covered.trans_lt bound, limit⟩
  · intro fit
    have cost : fullCost tx % 2 ^ 128 = fullCost tx := Nat.mod_eq_of_lt fit.cost
    rw [cost] at debit
    refine ⟨by omega, by omega, ?_⟩
    rw [credit]
    exact Nat.mod_eq_of_lt fit.credit

end Balances

/-- A transfer between two accounts is exact exactly if the sender cannot even pay the wrapped
cost, or cost and credit stay below the width of a balance. -/
theorem exactTransfer_iff (sha3 : Sha3) (vm : ProtonVM) (tx : Transaction) (kind : IsTransfer tx)
    (distinct : receiverAddr tx ≠ tx.sender) :
    ExactTransfer sha3 vm tx ↔
      balanceOf vm.state tx.sender < fullCost tx % 2 ^ 128 ∨ AmountsFit vm.state tx := by
  unfold ExactTransfer
  rw [transfer_success_iff sha3 vm tx kind, ← not_le, ← affordable_iff_mod]
  by_cases paid : Affordable vm.state tx
  · simp only [execute_paid sha3 vm tx kind paid, transferred_paidInFull_iff distinct paid, paid,
      forall_const, not_true, false_or]
  · simp only [paid, false_implies, not_false_iff, true_or]

/-! ## A gas price that wraps -/

namespace Sample

/-- Gas for 2 at half the range of balances costs nothing. -/
def freeTransfer : Transaction :=
  transaction .transfer 1 (some 2) 0 (BitVec.twoPow 128 127)

end Sample

theorem exactTransfer_sample :
    ExactTransfer Sample.sha3 Sample.funded (Sample.transaction .transfer 1 (some 2) 100 3) :=
  (exactTransfer_iff Sample.sha3 Sample.funded (Sample.transaction .transfer 1 (some 2) 100 3)
    (by decide) (by decide)).mpr (.inr ⟨by decide, by decide⟩)

/-- The sender of a transfer that costs more than there can be is served. -/
theorem free_transfer_is_served :
    IsTransfer Sample.freeTransfer ∧
      receiverAddr Sample.freeTransfer ≠ Sample.freeTransfer.sender ∧
      ¬ ExactTransfer Sample.sha3 Sample.funded Sample.freeTransfer := by
  refine ⟨by decide, by decide, ?_⟩
  intro exact
  have covered := (exact (by decide)).covered
  rw [fullCost] at covered
  exact absurd covered (by decide)

end ProtonChain.Vm
