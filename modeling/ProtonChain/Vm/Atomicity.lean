import ProtonChain.Vm.Transfer

/-! Executions that fail.

An execution either completes, without an error, or fails with one on the machine it was
given.
-/

set_option autoImplicit false

namespace ProtonChain.Vm

/-- A failed execution reports an error and leaves no trace, and no other reports one. -/
structure Atomic (before : ProtonVM) (result : ExecutionResult) (after : ProtonVM) : Prop where
  accounts : result.success = false → after.state.accounts = before.state.accounts
  contracts : result.success = false → after.state.contracts = before.state.contracts
  storage : result.success = false → after.state.storage = before.state.storage
  stateChanges : result.success = false → result.stateChanges = ∅
  reported : result.success = false → result.error.isSome
  succeeds : result.success = true ↔ result.error = none

theorem atomic_failure (vm : ProtonVM) (gasUsed : U64) (error : String) :
    Atomic vm (.failure gasUsed error) vm where
  accounts _ := rfl
  contracts _ := rfl
  storage _ := rfl
  stateChanges _ := rfl
  reported _ := rfl
  succeeds := by simp [ExecutionResult.failure]

theorem atomic_completed (vm after : ProtonVM) (gasUsed : U64) (returnData : Bytes)
    (stateChanges : HashMap Address AccountChange) :
    Atomic vm (.completed gasUsed returnData stateChanges) after := by
  constructor <;> simp [ExecutionResult.completed]

/-- Transfers fail before they write, deployments do not fail, and calls do not write. -/
theorem execute_atomic (sha3 : Sha3) (vm : ProtonVM) (tx : Transaction) :
    Atomic vm (executeTransaction sha3 vm tx).1 (executeTransaction sha3 vm tx).2 := by
  rcases type_cases tx with transfer | deploy | call | unsupported
  · by_cases paid : Affordable vm.state tx
    · rw [execute_paid sha3 vm tx transfer paid]
      exact atomic_completed _ _ _ _ _
    · rw [execute_short sha3 vm tx transfer paid]
      exact atomic_failure _ _ _
  · rw [execute_deploy sha3 vm tx deploy]
    exact atomic_completed _ _ _ _ _
  · cases found : vm.state.contracts.lookup (receiverAddr tx) with
    | none =>
      rw [execute_call_missing call found]
      exact atomic_failure _ _ _
    | some contract =>
      rw [execute_call call found]
      exact atomic_completed _ _ _ _ _
  · rw [execute_unsupported unsupported]
    exact atomic_failure _ _ _

end ProtonChain.Vm
