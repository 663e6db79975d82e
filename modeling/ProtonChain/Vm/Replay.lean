import ProtonChain.Vm.Transfer
import ProtonChain.Library.Runs

/-! Repeated transactions.

Execution advances nonces but compares none, so a transaction that succeeded is
refused later only for want of balance, and a deployment is never refused.
-/

set_option autoImplicit false

namespace ProtonChain.Vm

def ChangesState (tx : Transaction) : Prop :=
  IsTransfer tx ∨ tx.txType = .contractDeploy

/-- Failure that leaves the state as it was. -/
def Rejects (sha3 : Sha3) (vm : ProtonVM) (tx : Transaction) : Prop :=
  (executeTransaction sha3 vm tx).1.success = false ∧
    (executeTransaction sha3 vm tx).2.state = vm.state

def afterTransactions (sha3 : Sha3) (vm : ProtonVM) (txs : List Transaction) : ProtonVM :=
  (Runs.run (executeTransaction sha3) vm txs).2

theorem rejects_transfer_iff (sha3 : Sha3) (vm : ProtonVM) (tx : Transaction)
    (kind : IsTransfer tx) : Rejects sha3 vm tx ↔ ¬ Affordable vm.state tx := by
  constructor
  · -- a sender that can still pay is served again
    rintro ⟨failed, _⟩ paid
    rw [(transfer_success_iff sha3 vm tx kind).mpr paid] at failed
    cases failed
  · intro short
    rw [Rejects, execute_short sha3 vm tx kind short]
    exact ⟨rfl, rfl⟩

theorem deploy_never_rejected (sha3 : Sha3) (vm : ProtonVM) (tx : Transaction)
    (kind : tx.txType = .contractDeploy) : ¬ Rejects sha3 vm tx := by
  rintro ⟨failed, _⟩
  rw [execute_deploy sha3 vm tx kind] at failed
  cases failed

/-- The exact test a repetition meets: is it a transfer its sender can no longer pay? -/
theorem rejects_iff (sha3 : Sha3) (vm : ProtonVM) (tx : Transaction) (kind : ChangesState tx) :
    Rejects sha3 vm tx ↔ IsTransfer tx ∧ ¬ Affordable vm.state tx := by
  rcases kind with transfer | deploy
  · rw [rejects_transfer_iff sha3 vm tx transfer]
    simp [transfer]
  · have notTransfer : ¬ IsTransfer tx := by
      rintro (same | same) <;> rw [deploy] at same <;> cases same
    simp [deploy_never_rejected sha3 vm tx deploy, notTransfer]

/-- The two positions of a transaction that occurs again in a run, the first
occurrence having succeeded. -/
structure Repeated (sha3 : Sha3) (vm : ProtonVM) (txs earlier between later : List Transaction)
    (tx : Transaction) : Prop where
  positions : txs = earlier ++ tx :: (between ++ tx :: later)
  changes : ChangesState tx
  succeeded : (executeTransaction sha3 (afterTransactions sha3 vm earlier) tx).1.success = true

/-- Every repetition in the run is rejected. -/
def TakesEffectOnce (sha3 : Sha3) (vm : ProtonVM) (txs : List Transaction) : Prop :=
  ∀ earlier between later tx, Repeated sha3 vm txs earlier between later tx →
    Rejects sha3 (afterTransactions sha3 vm (earlier ++ tx :: between)) tx

/-- A run executes no transaction twice exactly if each repetition is a transfer
whose sender is short of value and gas when it comes round again. -/
theorem takesEffectOnce_iff (sha3 : Sha3) (vm : ProtonVM) (txs : List Transaction) :
    TakesEffectOnce sha3 vm txs ↔
      ∀ earlier between later tx, Repeated sha3 vm txs earlier between later tx →
        IsTransfer tx ∧
          ¬ Affordable (afterTransactions sha3 vm (earlier ++ tx :: between)).state tx := by
  constructor
  · intro once earlier between later tx repeated
    exact (rejects_iff sha3 _ tx repeated.changes).mp (once _ _ _ _ repeated)
  · intro short earlier between later tx repeated
    exact (rejects_iff sha3 _ tx repeated.changes).mpr (short _ _ _ _ repeated)

/-- A balance of 1000 pays the same transfer of 100 and 6 gas a second time. -/
theorem transfer_replayed :
    ¬ TakesEffectOnce Sample.sha3 Sample.funded
      [Sample.transaction .transfer 1 (some 2) 100 3,
        Sample.transaction .transfer 1 (some 2) 100 3] := by
  intro once
  have repeated : Repeated Sample.sha3 Sample.funded
      [Sample.transaction .transfer 1 (some 2) 100 3,
        Sample.transaction .transfer 1 (some 2) 100 3] [] [] []
      (Sample.transaction .transfer 1 (some 2) 100 3) :=
    ⟨rfl, .inl (by decide), by decide⟩
  exact absurd (once _ _ _ _ repeated).1 (by decide)

end ProtonChain.Vm
