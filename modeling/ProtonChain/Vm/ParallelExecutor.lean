import ProtonChain.Vm.Replay
import ProtonChain.Library.Reordering

/-! Block execution in parallel and in sequence.

Every execution holds the write lock of the machine, so a parallel run is some
order of whole executions; the answers are collected in block order.
-/

set_option autoImplicit false

namespace ProtonChain.Vm

open Runs (Schedule)

def executeBlockSequential (sha3 : Sha3) (vm : ProtonVM) (txs : List Transaction) :
    List ExecutionResult × ProtonVM :=
  Runs.run (executeTransaction sha3) vm txs

def executeAt (sha3 : Sha3) (txs : List Transaction) (vm : ProtonVM) (index : Fin txs.length) :
    ExecutionResult × ProtonVM :=
  executeTransaction sha3 vm (txs.get index)

/-- The schedule is the order in which the thread pool takes the transactions. -/
def executeBlockParallel (sha3 : Sha3) (vm : ProtonVM) (txs : List Transaction)
    (schedule : Schedule txs.length) : List ExecutionResult × ProtonVM :=
  let done := Runs.run (executeAt sha3 txs) vm schedule.order
  (schedule.collect done.1 (Runs.run_length _ _ _), done.2)

/-- The parallel run agrees with the sequential one whatever the thread pool does. -/
def AgreesWithSequential (sha3 : Sha3) (vm : ProtonVM) (txs : List Transaction) : Prop :=
  ∀ schedule, executeBlockParallel sha3 vm txs schedule = executeBlockSequential sha3 vm txs

/-- What another transaction may do to the account a deployment installs: deploy
the same code and value again, or be a transfer whose entry there is zero. -/
structure KeepsDeployed (sha3 : Sha3) (state : VMState) (deploy other : Transaction) : Prop where
  redeploy : other.txType = .contractDeploy →
    contractAddr sha3 other = contractAddr sha3 deploy →
      other.data = deploy.data ∧ other.value = deploy.value
  transfer : IsTransfer other → Affordable state other → ∀ change,
    (transferChanges other).lookup (contractAddr sha3 deploy) = some change →
      change.balanceDelta = 0 ∧ change.nonceDelta = 0

def DeploymentsKept (sha3 : Sha3) (vm : ProtonVM) (txs : List Transaction) : Prop :=
  ∀ first second : Fin txs.length, first ≠ second → (txs.get first).txType = .contractDeploy →
    KeepsDeployed sha3 vm.state (txs.get first) (txs.get second)

/-! ## Effects of successful executions -/

section Effects
variable (sha3 : Sha3)

/-- The effect of a transaction that succeeds. -/
def effectOf (tx : Transaction) (vm : ProtonVM) : ProtonVM :=
  if IsTransfer tx then transferred vm tx
  else if tx.txType = .contractDeploy then deployed sha3 vm tx
  else vm

variable {sha3} {tx : Transaction}

theorem effectOf_transfer (kind : IsTransfer tx) (vm : ProtonVM) :
    effectOf sha3 tx vm = transferred vm tx := if_pos kind

theorem effectOf_deploy (kind : tx.txType = .contractDeploy) (vm : ProtonVM) :
    effectOf sha3 tx vm = deployed sha3 vm tx := by
  rw [effectOf, if_neg (not_transfer_of_deploy kind), if_pos kind]

theorem effectOf_inert (kind : IsInert tx) (vm : ProtonVM) : effectOf sha3 tx vm = vm := by
  rw [effectOf, if_neg kind.1, if_neg kind.2]

theorem execute_succeeded (vm : ProtonVM)
    (succeeded : (executeTransaction sha3 vm tx).1.success = true) :
    (executeTransaction sha3 vm tx).2 = effectOf sha3 tx vm := by
  rcases kind_cases tx with transfer | deploy | inert
  · have paid := (transfer_success_iff sha3 vm tx transfer).mp succeeded
    rw [effectOf_transfer transfer, execute_paid sha3 vm tx transfer paid]
  · rw [effectOf_deploy deploy, execute_deploy sha3 vm tx deploy]
  · rw [effectOf_inert inert, (execute_inert sha3 vm tx inert).1]

theorem transfer_result {first second : ProtonVM} (kind : IsTransfer tx)
    (schedule : first.gasSchedule = second.gasSchedule)
    (affordable : Affordable first.state tx ↔ Affordable second.state tx) :
    (executeTransaction sha3 first tx).1 = (executeTransaction sha3 second tx).1 := by
  have gas : transferGas first tx = transferGas second tx := by
    rw [transferGas, schedule, transferGas]
  by_cases paid : Affordable first.state tx
  · rw [execute_paid sha3 first tx kind paid,
      execute_paid sha3 second tx kind (affordable.mp paid), gas, schedule]
  · have short : ¬ Affordable second.state tx := fun paid' => paid (affordable.mpr paid')
    rw [execute_short sha3 first tx kind paid, execute_short sha3 second tx kind short, gas]

theorem machine_ext {first second : ProtonVM}
    (accounts : ∀ address, first.state.accounts.lookup address =
      second.state.accounts.lookup address)
    (contracts : ∀ address, first.state.contracts.lookup address =
      second.state.contracts.lookup address)
    (storage : first.state.storage = second.state.storage)
    (context : first.state.blockContext = second.state.blockContext)
    (gas : first.gasSchedule = second.gasSchedule) : first = second := by
  obtain ⟨⟨_, _, _, _⟩, _⟩ := first
  obtain ⟨⟨_, _, _, _⟩, _⟩ := second
  simp only at storage context gas
  subst storage context gas
  have sameAccounts := Finmap.ext_lookup accounts
  have sameContracts := Finmap.ext_lookup contracts
  simp only at sameAccounts sameContracts
  subst sameAccounts sameContracts
  rfl

theorem transfers_commute (first second : Transaction) (vm : ProtonVM) :
    transferred (transferred vm second) first = transferred (transferred vm first) second := by
  refine machine_ext ?_ (fun _ => rfl) rfl rfl rfl
  intro address
  exact congrArg (Finmap.lookup address)
    (FiniteMap.changeAll_comm AccountChange.applyTo Account.default AccountChange.applyTo_comm
      (transferChanges first) (transferChanges second) vm.state.accounts)

variable {state : VMState} {deploy other : Transaction}

theorem applyTo_zero {change : AccountChange} (account : Account)
    (zero : change.balanceDelta = 0 ∧ change.nonceDelta = 0) :
    change.applyTo account = account := by
  simp [AccountChange.applyTo, zero.1, zero.2]

theorem transfer_deploy_commute
    (zero : ∀ change, (transferChanges other).lookup (contractAddr sha3 deploy) = some change →
      change.balanceDelta = 0 ∧ change.nonceDelta = 0) (vm : ProtonVM) :
    transferred (deployed sha3 vm deploy) other = deployed sha3 (transferred vm other) deploy := by
  refine machine_ext ?_ (fun _ => rfl) rfl rfl rfl
  intro address
  rw [transferred_lookup, VMState.account, deployed_lookup, deployed_lookup]
  -- only the installed account is written by both
  by_cases installed : address = contractAddr sha3 deploy
  · subst installed
    simp only [if_pos]
    cases listed : (transferChanges other).lookup (contractAddr sha3 deploy) with
    | none => rfl
    | some change =>
      simp only [Option.elim_some, Option.getD_some, applyTo_zero _ (zero change listed)]
  · simp only [if_neg installed]
    rw [transferred_lookup]
    rfl

theorem deploys_commute
    (same : contractAddr sha3 other = contractAddr sha3 deploy →
      other.data = deploy.data ∧ other.value = deploy.value) (vm : ProtonVM) :
    deployed sha3 (deployed sha3 vm deploy) other =
      deployed sha3 (deployed sha3 vm other) deploy := by
  by_cases clash : contractAddr sha3 other = contractAddr sha3 deploy
  · obtain ⟨data, value⟩ := same clash
    have account : deployedAccount sha3 other = deployedAccount sha3 deploy := by
      simp only [deployedAccount, data, value]
    have code : deployedCode other = deployedCode deploy := by
      simp only [deployedCode, data]
    simp only [deployed, clash, account, code]
  · refine machine_ext ?_ ?_ rfl rfl rfl
    · intro address
      simp only [deployed_lookup]
      by_cases first : address = contractAddr sha3 other
      · subst first; simp [clash]
      · simp [first]
    · intro address
      simp only [deployed_contracts]
      by_cases first : address = contractAddr sha3 other
      · subst first; simp [clash]
      · simp [first]

/-- Effects of two transactions that succeed at a common state commute everywhere. -/
theorem effects_commute {vm : ProtonVM} {first second : Transaction}
    (firstRan : (executeTransaction sha3 vm first).1.success = true)
    (secondRan : (executeTransaction sha3 vm second).1.success = true)
    (firstKept : first.txType = .contractDeploy → KeepsDeployed sha3 vm.state first second)
    (secondKept : second.txType = .contractDeploy → KeepsDeployed sha3 vm.state second first)
    (machine : ProtonVM) :
    effectOf sha3 first (effectOf sha3 second machine) =
      effectOf sha3 second (effectOf sha3 first machine) := by
  rcases kind_cases first with transfer | deploy | inert
  · rcases kind_cases second with transfer' | deploy' | inert'
    · simp only [effectOf_transfer transfer, effectOf_transfer transfer']
      exact transfers_commute first second machine
    · simp only [effectOf_transfer transfer, effectOf_deploy deploy']
      have paid := (transfer_success_iff sha3 vm first transfer).mp firstRan
      exact transfer_deploy_commute ((secondKept deploy').transfer transfer paid) machine
    · simp only [effectOf_inert inert']
  · rcases kind_cases second with transfer' | deploy' | inert'
    · simp only [effectOf_deploy deploy, effectOf_transfer transfer']
      have paid := (transfer_success_iff sha3 vm second transfer').mp secondRan
      exact (transfer_deploy_commute ((firstKept deploy).transfer transfer' paid) machine).symm
    · simp only [effectOf_deploy deploy, effectOf_deploy deploy']
      exact deploys_commute ((secondKept deploy').redeploy deploy) machine
    · simp only [effectOf_inert inert']
  · simp only [effectOf_inert inert]

/-- What a transaction does to any machine that answers it as the given one does. -/
def effectFrom (sha3 : Sha3) (vm : ProtonVM) (tx : Transaction) (machine : ProtonVM) : ProtonVM :=
  if (executeTransaction sha3 vm tx).1.success then effectOf sha3 tx machine else machine

theorem effectFrom_determined {vm machine : ProtonVM}
    (same : (executeTransaction sha3 machine tx).1 = (executeTransaction sha3 vm tx).1) :
    (executeTransaction sha3 machine tx).2 = effectFrom sha3 vm tx machine := by
  unfold effectFrom
  rw [← same]
  split
  next ran => exact execute_succeeded machine ran
  next failed => exact execute_failed sha3 machine tx (Bool.not_eq_true _ ▸ failed)

theorem effectFrom_comm {vm : ProtonVM} {first second : Transaction}
    (firstKept : first.txType = .contractDeploy → KeepsDeployed sha3 vm.state first second)
    (secondKept : second.txType = .contractDeploy → KeepsDeployed sha3 vm.state second first)
    (machine : ProtonVM) :
    effectFrom sha3 vm first (effectFrom sha3 vm second machine) =
      effectFrom sha3 vm second (effectFrom sha3 vm first machine) := by
  unfold effectFrom
  split
  next firstRan =>
    split
    next secondRan => exact effects_commute firstRan secondRan firstKept secondKept machine
    next => rfl
  next => rfl

/-- Two installations at one address agree in either order only if they are the same. -/
theorem redeploy_of_commute {machine : ProtonVM}
    (same : deployed sha3 (deployed sha3 machine deploy) other =
      deployed sha3 (deployed sha3 machine other) deploy)
    (clash : contractAddr sha3 other = contractAddr sha3 deploy) :
    other.data = deploy.data ∧ other.value = deploy.value := by
  have accounts := congrArg (fun vm => vm.state.accounts.lookup (contractAddr sha3 deploy)) same
  have contracts := congrArg (fun vm => vm.state.contracts.lookup (contractAddr sha3 deploy)) same
  simp only [deployed_lookup, deployed_contracts, clash, if_pos] at accounts contracts
  exact ⟨congrArg ContractCode.code (Option.some.inj contracts),
    congrArg Account.balance (Option.some.inj accounts)⟩

/-- A transfer entry at an installed account is seen unless it is zero. -/
theorem zero_of_commute {machine : ProtonVM} {change : AccountChange}
    (same : transferred (deployed sha3 machine deploy) other =
      deployed sha3 (transferred machine other) deploy)
    (listed : (transferChanges other).lookup (contractAddr sha3 deploy) = some change) :
    change.balanceDelta = 0 ∧ change.nonceDelta = 0 := by
  have accounts := congrArg (fun vm => vm.state.accounts.lookup (contractAddr sha3 deploy)) same
  simp only [transferred_lookup, listed, Option.elim_some, VMState.account, deployed_lookup,
    if_pos, Option.getD_some, Option.some.injEq] at accounts
  have balance := congrArg Account.balance accounts
  have nonce := congrArg Account.nonce accounts
  simp only [AccountChange.applyTo] at balance nonce
  exact ⟨BitVec.add_right_eq_self.mp balance, BitVec.add_right_eq_self.mp nonce⟩

end Effects

end ProtonChain.Vm
