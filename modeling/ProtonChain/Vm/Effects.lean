import ProtonChain.Vm.Machine

/-! What one execution does, stated once for every transaction type.

Later proofs use these laws and do not unfold an execution function again.
-/

set_option autoImplicit false

namespace ProtonChain.Vm

/-- The two transaction types that run `execute_transfer`. -/
def IsTransfer (tx : Transaction) : Prop :=
  tx.txType = .transfer ∨ tx.txType = .privateTransfer

instance (tx : Transaction) : Decidable (IsTransfer tx) :=
  inferInstanceAs (Decidable (_ ∨ _))

/-- The transaction types with no effect on the state. -/
def IsInert (tx : Transaction) : Prop :=
  ¬ IsTransfer tx ∧ tx.txType ≠ .contractDeploy

/-- The transaction types of the wildcard arm. -/
def IsUnsupported (tx : Transaction) : Prop :=
  tx.txType = .stake ∨ tx.txType = .unstake ∨ tx.txType = .crossChain

def Affordable (state : VMState) (tx : Transaction) : Prop :=
  totalCost tx ≤ (state.account tx.sender).balance

instance (state : VMState) (tx : Transaction) : Decidable (Affordable state tx) :=
  inferInstanceAs (Decidable (_ ≤ _))

def transferGas (vm : ProtonVM) (tx : Transaction) : U64 :=
  if tx.txType = .privateTransfer ∧ tx.zkProof.isSome then
    vm.gasSchedule.baseTxCost + 100000
  else vm.gasSchedule.baseTxCost

/-- Gas charged for running a contract, by the length of its code. -/
def codeGas (schedule : GasSchedule) (contract : ContractCode) : U64 :=
  match contract.vmType with
  | .wasm => BitVec.ofNat 64 contract.code.length * schedule.wasmInstruction
  | .evm => BitVec.ofNat 64 contract.code.length * schedule.evmInstruction
  | .native => 0

def transferred (vm : ProtonVM) (tx : Transaction) : ProtonVM :=
  { vm with state := { vm.state with
    accounts := applyChanges (transferChanges tx) vm.state.accounts } }

def deployed (sha3 : Sha3) (vm : ProtonVM) (tx : Transaction) : ProtonVM :=
  { vm with state := { vm.state with
    contracts := vm.state.contracts.insert (contractAddr sha3 tx) (deployedCode tx)
    accounts := vm.state.accounts.insert (contractAddr sha3 tx) (deployedAccount sha3 tx) } }

theorem lookup_applyChanges (changes : HashMap Address AccountChange)
    (accounts : HashMap Address Account) (address : Address) :
    (applyChanges changes accounts).lookup address =
      (changes.lookup address).elim (accounts.lookup address)
        fun change => some (change.applyTo ((accounts.lookup address).getD Account.default)) :=
  FiniteMap.lookup_changeAll AccountChange.applyTo Account.default AccountChange.applyTo_comm
    changes accounts address

theorem lookup_transferChanges (tx : Transaction) (address : Address) :
    (transferChanges tx).lookup address =
      if address = receiverAddr tx then some (receiverChange tx)
      else if address = tx.sender then some (senderChange tx) else none := by
  unfold transferChanges
  apply FiniteMap.lookup_insert_two

theorem transferred_lookup (vm : ProtonVM) (tx : Transaction) (address : Address) :
    (transferred vm tx).state.accounts.lookup address =
      ((transferChanges tx).lookup address).elim (vm.state.accounts.lookup address)
        fun change => some (change.applyTo (vm.state.account address)) :=
  lookup_applyChanges _ _ _

theorem transferred_account (vm : ProtonVM) (tx : Transaction) {address : Address}
    {change : AccountChange} (listed : (transferChanges tx).lookup address = some change) :
    (transferred vm tx).state.account address = change.applyTo (vm.state.account address) := by
  rw [VMState.account, transferred_lookup, listed]
  rfl

/-- The receiver's entry is what remains, also for a sender with the same address. -/
theorem transferred_receiver (vm : ProtonVM) (tx : Transaction) :
    (transferred vm tx).state.account (receiverAddr tx) =
      (receiverChange tx).applyTo (vm.state.account (receiverAddr tx)) := by
  apply transferred_account
  rw [lookup_transferChanges, if_pos rfl]

theorem transferred_sender (vm : ProtonVM) (tx : Transaction)
    (distinct : receiverAddr tx ≠ tx.sender) :
    (transferred vm tx).state.account tx.sender =
      (senderChange tx).applyTo (vm.state.account tx.sender) := by
  apply transferred_account
  rw [lookup_transferChanges, if_neg (Ne.symm distinct), if_pos rfl]

theorem transferred_frame (vm : ProtonVM) (tx : Transaction) {address : Address}
    (notSender : address ≠ tx.sender) (notReceiver : address ≠ receiverAddr tx) :
    (transferred vm tx).state.accounts.lookup address = vm.state.accounts.lookup address := by
  rw [transferred_lookup, lookup_transferChanges, if_neg notReceiver, if_neg notSender,
    Option.elim_none]

theorem deployed_lookup (sha3 : Sha3) (vm : ProtonVM) (tx : Transaction) (address : Address) :
    (deployed sha3 vm tx).state.accounts.lookup address =
      if address = contractAddr sha3 tx then some (deployedAccount sha3 tx)
      else vm.state.accounts.lookup address :=
  FiniteMap.lookup_insert _ _ _ _

theorem deployed_contracts (sha3 : Sha3) (vm : ProtonVM) (tx : Transaction) (address : Address) :
    (deployed sha3 vm tx).state.contracts.lookup address =
      if address = contractAddr sha3 tx then some (deployedCode tx)
      else vm.state.contracts.lookup address :=
  FiniteMap.lookup_insert _ _ _ _

/-! ## One law per transaction type -/

theorem not_transfer_of_deploy {tx : Transaction} (kind : tx.txType = .contractDeploy) :
    ¬ IsTransfer tx := by
  intro transfer
  rcases transfer with plain | secret
  · rw [kind] at plain
    cases plain
  · rw [kind] at secret
    cases secret

section Calls
variable {sha3 : Sha3} {vm : ProtonVM} {tx : Transaction}

theorem execute_call (kind : tx.txType = .contractCall) {contract : ContractCode}
    (found : vm.state.contracts.lookup (receiverAddr tx) = some contract) :
    executeTransaction sha3 vm tx =
      (.completed (vm.gasSchedule.baseTxCost + codeGas vm.gasSchedule contract) [1] ∅, vm) := by
  simp only [executeTransaction, kind, executeContractCall, found, codeGas]
  cases contract.vmType with
  | wasm => rfl
  | evm => rfl
  | native => simp [executeNative]

theorem execute_call_missing (kind : tx.txType = .contractCall)
    (missing : vm.state.contracts.lookup (receiverAddr tx) = none) :
    executeTransaction sha3 vm tx =
      (.failure vm.gasSchedule.baseTxCost "Contract not found", vm) := by
  simp only [executeTransaction, kind, executeContractCall, missing]

theorem execute_unsupported (kind : IsUnsupported tx) :
    executeTransaction sha3 vm tx =
      (.failure vm.gasSchedule.baseTxCost "Unsupported transaction type", vm) := by
  rcases kind with kind | kind | kind <;> simp only [executeTransaction, kind]

end Calls

section Execution
variable (sha3 : Sha3) (vm : ProtonVM) (tx : Transaction)

theorem executeTransaction_transfer (kind : IsTransfer tx) :
    executeTransaction sha3 vm tx = executeTransfer vm tx (transferGas vm tx) := by
  rcases kind with plain | secret
  · simp [executeTransaction, transferGas, plain]
  · cases attached : tx.zkProof <;>
      simp [executeTransaction, executePrivateTransfer, transferGas, secret, attached]

theorem execute_short (kind : IsTransfer tx) (short : ¬ Affordable vm.state tx) :
    executeTransaction sha3 vm tx =
      (.failure (transferGas vm tx) "Insufficient balance", vm) := by
  rw [executeTransaction_transfer sha3 vm tx kind, executeTransfer]
  exact if_pos (BitVec.not_le.mp short)

theorem execute_paid (kind : IsTransfer tx) (paid : Affordable vm.state tx) :
    executeTransaction sha3 vm tx =
      (.completed (transferGas vm tx + vm.gasSchedule.baseTxCost) [] (transferChanges tx),
        transferred vm tx) := by
  rw [executeTransaction_transfer sha3 vm tx kind, executeTransfer]
  exact if_neg (BitVec.not_lt.mpr paid)

theorem execute_deploy (kind : tx.txType = .contractDeploy) :
    executeTransaction sha3 vm tx =
      (.completed (vm.gasSchedule.baseTxCost +
          (vm.gasSchedule.baseTxCost + BitVec.ofNat 64 tx.data.length * 200)) []
          (deployChanges sha3 tx),
        deployed sha3 vm tx) := by
  simp [executeTransaction, kind, executeContractDeploy, deployed]

theorem type_cases : IsTransfer tx ∨ tx.txType = .contractDeploy ∨ tx.txType = .contractCall ∨
    IsUnsupported tx := by
  cases kind : tx.txType <;> simp [IsTransfer, IsUnsupported, kind]

theorem execute_inert (kind : IsInert tx) :
    (executeTransaction sha3 vm tx).2 = vm ∧
      (executeTransaction sha3 vm tx).1.stateChanges = ∅ := by
  rcases type_cases tx with transfer | deploy | call | unsupported
  · exact absurd transfer kind.1
  · exact absurd deploy kind.2
  · cases found : vm.state.contracts.lookup (receiverAddr tx) with
    | none =>
      rw [execute_call_missing call found]
      exact ⟨rfl, rfl⟩
    | some contract =>
      rw [execute_call call found]
      exact ⟨rfl, rfl⟩
  · rw [execute_unsupported unsupported]
    exact ⟨rfl, rfl⟩

theorem transfer_success_iff (kind : IsTransfer tx) :
    (executeTransaction sha3 vm tx).1.success = true ↔ Affordable vm.state tx := by
  by_cases paid : Affordable vm.state tx
  · simp [execute_paid sha3 vm tx kind paid, ExecutionResult.completed, paid]
  · simp [execute_short sha3 vm tx kind paid, ExecutionResult.failure, paid]

theorem kind_cases : IsTransfer tx ∨ tx.txType = .contractDeploy ∨ IsInert tx := by
  by_cases transfer : IsTransfer tx
  · exact .inl transfer
  · by_cases deploy : tx.txType = .contractDeploy
    · exact .inr (.inl deploy)
    · exact .inr (.inr ⟨transfer, deploy⟩)

theorem execute_failed (failed : (executeTransaction sha3 vm tx).1.success = false) :
    (executeTransaction sha3 vm tx).2 = vm := by
  rcases kind_cases tx with transfer | deploy | inert
  · have short : ¬ Affordable vm.state tx := by
      rw [← transfer_success_iff sha3 vm tx transfer, failed]
      simp
    rw [execute_short sha3 vm tx transfer short]
  · simp [execute_deploy sha3 vm tx deploy, ExecutionResult.completed] at failed
  · exact (execute_inert sha3 vm tx inert).1

end Execution

end ProtonChain.Vm
