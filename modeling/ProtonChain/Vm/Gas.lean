import ProtonChain.Vm.Transfer

/-! Gas that an execution reports, against the limit and the estimate.

The estimate and the meter are separate formulas. The meter charges the base cost once for
every transaction and once more for what a transfer or a deployment does, and the limit is
never compared with it.
-/

set_option autoImplicit false

namespace ProtonChain.Vm

/-- The estimator does not look at the machine it is given. -/
def estimateGas (tx : Transaction) (_vm : ProtonVM) : U64 :=
  match tx.txType with
  | .transfer => 21000
  | .contractDeploy => 53000 + BitVec.ofNat 64 tx.data.length * 200
  | .contractCall => 21000 + BitVec.ofNat 64 tx.data.length * 100
  | .privateTransfer => 121000
  | .stake | .unstake | .crossChain => 21000

/-- A transaction that succeeds has used no more gas than its limit and the estimate. -/
def WithinGas (sha3 : Sha3) (vm : ProtonVM) (tx : Transaction) : Prop :=
  (executeTransaction sha3 vm tx).1.success = true →
    (executeTransaction sha3 vm tx).1.gasUsed ≤ tx.gasLimit ∧
      (executeTransaction sha3 vm tx).1.gasUsed ≤ estimateGas tx vm

/-- So much gas is allowed by the limit and by the estimate. -/
structure Allowed (tx : Transaction) (metered estimate : Nat) : Prop where
  limit : metered ≤ tx.gasLimit.toNat
  estimate : metered ≤ estimate

/-- What it takes, in the gas of the default schedule. A public transfer is metered above its
estimate, and so is a private one that carries a proof. -/
def GasCovered (state : VMState) (tx : Transaction) : Prop :=
  match tx.txType with
  | .transfer => ¬ Affordable state tx
  | .privateTransfer => Affordable state tx → tx.zkProof = none ∧ 42000 ≤ tx.gasLimit.toNat
  | .contractDeploy =>
    Allowed tx ((42000 + tx.data.length * 200) % 2 ^ 64) ((53000 + tx.data.length * 200) % 2 ^ 64)
  | .contractCall =>
    ∀ contract, state.contracts.lookup (receiverAddr tx) = some contract →
      let instructions := if contract.vmType = .native then 0 else contract.code.length
      Allowed tx ((21000 + instructions) % 2 ^ 64) ((21000 + tx.data.length * 100) % 2 ^ 64)
  | .stake | .unstake | .crossChain => True

/-! ## Words as numbers -/

theorem ofNat_add_mul_toNat (base length factor : Nat) :
    (BitVec.ofNat 64 base + BitVec.ofNat 64 length * BitVec.ofNat 64 factor).toNat =
      (base + length * factor) % 2 ^ 64 := by
  simp [BitVec.toNat_add, BitVec.toNat_mul, Nat.add_mod, Nat.mul_mod]

/-! ## Under the default schedule -/

section Default
variable {sha3 : Sha3} {vm : ProtonVM} {tx : Transaction}
  (schedule : vm.gasSchedule = GasSchedule.default)
include schedule

theorem withinGas_transfer (kind : tx.txType = .transfer) :
    WithinGas sha3 vm tx ↔ ¬ Affordable vm.state tx := by
  have transfer : IsTransfer tx := .inl kind
  unfold WithinGas
  rw [transfer_success_iff sha3 vm tx transfer]
  apply imp_congr_right
  intro paid
  simp [execute_paid sha3 vm tx transfer paid, ExecutionResult.completed, transferGas, kind,
    schedule, GasSchedule.default, estimateGas]

theorem withinGas_privateTransfer (kind : tx.txType = .privateTransfer) :
    WithinGas sha3 vm tx ↔
      (Affordable vm.state tx → tx.zkProof = none ∧ 42000 ≤ tx.gasLimit.toNat) := by
  have transfer : IsTransfer tx := .inr kind
  unfold WithinGas
  rw [transfer_success_iff sha3 vm tx transfer]
  apply imp_congr_right
  intro paid
  cases attached : tx.zkProof with
  | none =>
    simp [execute_paid sha3 vm tx transfer paid, ExecutionResult.completed, transferGas, kind,
      attached, schedule, GasSchedule.default, estimateGas, BitVec.le_def]
  | some proof =>
    simp [execute_paid sha3 vm tx transfer paid, ExecutionResult.completed, transferGas, kind,
      attached, schedule, GasSchedule.default, estimateGas]

theorem withinGas_deploy (kind : tx.txType = .contractDeploy) :
    WithinGas sha3 vm tx ↔
      Allowed tx ((42000 + tx.data.length * 200) % 2 ^ 64)
        ((53000 + tx.data.length * 200) % 2 ^ 64) := by
  have metered : (21000 + (21000 + BitVec.ofNat 64 tx.data.length * 200) : U64).toNat =
      (42000 + tx.data.length * 200) % 2 ^ 64 := by
    rw [← BitVec.add_assoc]
    exact ofNat_add_mul_toNat 42000 tx.data.length 200
  have estimated : (53000 + BitVec.ofNat 64 tx.data.length * 200 : U64).toNat =
      (53000 + tx.data.length * 200) % 2 ^ 64 := ofNat_add_mul_toNat 53000 tx.data.length 200
  unfold WithinGas
  rw [execute_deploy sha3 vm tx kind, ← metered, ← estimated]
  simp only [ExecutionResult.completed, schedule, GasSchedule.default, estimateGas, kind,
    forall_const, BitVec.le_def]
  exact ⟨fun bounds => ⟨bounds.1, bounds.2⟩, fun bounds => ⟨bounds.limit, bounds.estimate⟩⟩

theorem withinGas_call (kind : tx.txType = .contractCall) :
    WithinGas sha3 vm tx ↔
      ∀ contract, vm.state.contracts.lookup (receiverAddr tx) = some contract →
        Allowed tx
          ((21000 + if contract.vmType = .native then 0 else contract.code.length) % 2 ^ 64)
          ((21000 + tx.data.length * 100) % 2 ^ 64) := by
  have estimated : (estimateGas tx vm).toNat = (21000 + tx.data.length * 100) % 2 ^ 64 := by
    simp only [estimateGas, kind]
    exact ofNat_add_mul_toNat 21000 tx.data.length 100
  unfold WithinGas
  cases found : vm.state.contracts.lookup (receiverAddr tx) with
  | none => simp [execute_call_missing kind found, ExecutionResult.failure]
  | some contract =>
    have metered : (executeTransaction sha3 vm tx).1.gasUsed.toNat =
        (21000 + if contract.vmType = .native then 0 else contract.code.length) % 2 ^ 64 := by
      rw [execute_call kind found, schedule, codeGas]
      cases contract.vmType with
      | wasm => exact (ofNat_add_mul_toNat 21000 contract.code.length 1).trans (by simp)
      | evm => exact (ofNat_add_mul_toNat 21000 contract.code.length 1).trans (by simp)
      | native => rfl
    have succeeded : (executeTransaction sha3 vm tx).1.success = true := by
      rw [execute_call kind found]
      rfl
    simp only [succeeded, forall_const, BitVec.le_def, metered, estimated, Option.some.injEq,
      forall_eq']
    exact ⟨fun bounds => ⟨bounds.1, bounds.2⟩, fun bounds => ⟨bounds.limit, bounds.estimate⟩⟩

omit schedule in
theorem withinGas_unsupported (kind : IsUnsupported tx) : WithinGas sha3 vm tx := by
  intro succeeded
  rw [execute_unsupported kind] at succeeded
  cases succeeded

/-- The gas of a transaction is within its limit and estimate exactly under the condition of
its type. -/
theorem withinGas_iff (sha3 : Sha3) (tx : Transaction) :
    WithinGas sha3 vm tx ↔ GasCovered vm.state tx := by
  unfold GasCovered
  cases kind : tx.txType with
  | transfer => exact withinGas_transfer schedule kind
  | contractDeploy => exact withinGas_deploy schedule kind
  | contractCall => exact withinGas_call schedule kind
  | privateTransfer => exact withinGas_privateTransfer schedule kind
  | stake => exact iff_of_true (withinGas_unsupported (.inl kind)) trivial
  | unstake => exact iff_of_true (withinGas_unsupported (.inr (.inl kind))) trivial
  | crossChain => exact iff_of_true (withinGas_unsupported (.inr (.inr kind))) trivial

end Default

/-- A private transfer without a proof, with gas for two base costs. -/
theorem withinGas_sample :
    WithinGas Sample.sha3 Sample.funded
      { Sample.transaction .privateTransfer 1 (some 2) 100 0 with gasLimit := 42000 } :=
  (withinGas_iff rfl Sample.sha3 _).mpr fun _ => ⟨rfl, by decide⟩

/-- A plain transfer with the gas that was estimated for it uses twice as much. -/
theorem transfer_exceeds_estimate :
    ¬ WithinGas Sample.sha3 Sample.funded
      { Sample.transaction .transfer 1 (some 2) 100 0 with gasLimit := 21000 } := by
  intro within
  exact absurd (within (by decide)).2 (by decide)

end ProtonChain.Vm
