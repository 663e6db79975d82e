import ProtonChain.Vm.Transfer

/-! Funds and collisions of a deployment.

A deployment always succeeds, writes its account and its code over whatever is
at the derived address, and leaves the sender's account alone.
-/

set_option autoImplicit false

namespace ProtonChain.Vm

/-- What a deployment is to do: the sender pays, and nothing at the address is replaced. -/
structure DeploysSafely (before after : VMState) (success : Bool) (address : Address)
    (tx : Transaction) : Prop where
  covered : success = true → tx.value.toNat + tx.gasCost.toNat ≤ balanceOf before tx.sender
  total : success = true →
    totalBalance after.accounts + tx.gasCost.toNat = totalBalance before.accounts
  account : ∀ account, before.accounts.lookup address = some account →
    after.accounts.lookup address = some account
  code : ∀ contract, before.contracts.lookup address = some contract →
    after.contracts.lookup address = some contract

section Deploy
variable (sha3 : Sha3) (vm : ProtonVM) (tx : Transaction)

/-- The value appears at the address in place of what was there. -/
theorem deployed_total :
    totalBalance (deployed sha3 vm tx).state.accounts + balanceOf vm.state (contractAddr sha3 tx) =
      totalBalance vm.state.accounts + tx.value.toNat := by
  have write := FiniteMap.total_insert (fun account : Account => account.balance.toNat)
    vm.state.accounts (contractAddr sha3 tx) (deployedAccount sha3 tx)
  rw [weightAt_accounts] at write
  exact write

/-- The total is right exactly if the account that is replaced held value and gas. -/
theorem deployed_total_iff :
    totalBalance (deployed sha3 vm tx).state.accounts + tx.gasCost.toNat =
        totalBalance vm.state.accounts ↔
      balanceOf vm.state (contractAddr sha3 tx) = tx.value.toNat + tx.gasCost.toNat := by
  have moved := deployed_total sha3 vm tx
  omega

theorem balanceOf_account {address : Address} {account : Account}
    (found : vm.state.accounts.lookup address = some account) :
    balanceOf vm.state address = account.balance.toNat := by
  rw [balanceOf, VMState.account, found, Option.getD_some]

theorem balanceOf_missing {address : Address}
    (missing : vm.state.accounts.lookup address = none) : balanceOf vm.state address = 0 := by
  rw [balanceOf, VMState.account, missing, Option.getD_none]
  rfl

/-- A deployment does what it is to do exactly if gas is free, the sender holds the
value, and the address holds what the deployment writes, or nothing and no value. -/
theorem deploy_iff (kind : tx.txType = .contractDeploy) :
    DeploysSafely vm.state (executeTransaction sha3 vm tx).2.state
        (executeTransaction sha3 vm tx).1.success (contractAddr sha3 tx) tx ↔
      tx.gasCost = 0 ∧ tx.value.toNat ≤ balanceOf vm.state tx.sender ∧
        (vm.state.accounts.lookup (contractAddr sha3 tx) = none → tx.value = 0) ∧
        (∀ account, vm.state.accounts.lookup (contractAddr sha3 tx) = some account →
          account = deployedAccount sha3 tx) ∧
        (∀ contract, vm.state.contracts.lookup (contractAddr sha3 tx) = some contract →
          contract = deployedCode tx) := by
  have account_eq : (deployed sha3 vm tx).state.accounts.lookup (contractAddr sha3 tx) =
      some (deployedAccount sha3 tx) := by rw [deployed_lookup, if_pos rfl]
  have code_eq : (deployed sha3 vm tx).state.contracts.lookup (contractAddr sha3 tx) =
      some (deployedCode tx) := by rw [deployed_contracts, if_pos rfl]
  have total := deployed_total_iff sha3 vm tx
  have gas_zero : tx.gasCost = 0 ↔ tx.gasCost.toNat = 0 := BitVec.toNat_inj.symm
  have value_zero : tx.value = 0 ↔ tx.value.toNat = 0 := BitVec.toNat_inj.symm
  have written : (deployedAccount sha3 tx).balance.toNat = tx.value.toNat := rfl
  rw [execute_deploy sha3 vm tx kind, gas_zero, value_zero]
  constructor
  · rintro ⟨covered, conserved, account, code⟩
    have held := total.mp (conserved rfl)
    have kept : ∀ account, vm.state.accounts.lookup (contractAddr sha3 tx) = some account →
        account = deployedAccount sha3 tx := fun other found =>
      Option.some.inj ((account other found).symm.trans account_eq)
    -- the replaced account held value and gas, and it held the value alone or nothing
    have free : tx.gasCost.toNat = 0 := by
      cases found : vm.state.accounts.lookup (contractAddr sha3 tx) with
      | none =>
        rw [balanceOf_missing vm found] at held
        omega
      | some other =>
        rw [balanceOf_account vm found, kept other found, written] at held
        omega
    have paid := covered rfl
    refine ⟨free, by omega, fun missing => ?_, kept, fun other found =>
      Option.some.inj ((code other found).symm.trans code_eq)⟩
    rw [balanceOf_missing vm missing] at held
    omega
  · rintro ⟨free, paid, unfunded, account, code⟩
    refine ⟨fun _ => by omega, fun _ => total.mpr ?_, fun other found => ?_, fun other found => ?_⟩
    · cases found : vm.state.accounts.lookup (contractAddr sha3 tx) with
      | none =>
        rw [balanceOf_missing vm found, unfunded found, free]
      | some other =>
        rw [balanceOf_account vm found, account other found, written, free, Nat.add_zero]
    · rw [account_eq, account other found]
    · rw [code_eq, code other found]

end Deploy

/-- A deployment without value and gas at an address where nothing is. -/
theorem deploy_sample :
    DeploysSafely Sample.funded.state
      (executeTransaction Sample.sha3 Sample.funded
        (Sample.transaction .contractDeploy 1 none 0 0)).2.state
      (executeTransaction Sample.sha3 Sample.funded
        (Sample.transaction .contractDeploy 1 none 0 0)).1.success
      (contractAddr Sample.sha3 (Sample.transaction .contractDeploy 1 none 0 0))
      (Sample.transaction .contractDeploy 1 none 0 0) := by
  have vacant : Sample.funded.state.accounts.lookup (contractAddr Sample.sha3
      (Sample.transaction .contractDeploy 1 none 0 0)) = none := by decide
  refine (deploy_iff Sample.sha3 Sample.funded (Sample.transaction .contractDeploy 1 none 0 0)
    rfl).mpr ⟨by decide, by decide, by decide, fun account found => ?_, fun contract found => ?_⟩
  · rw [vacant] at found
    cases found
  · cases found

/-- With 1000 to its name the sender deploys a contract that holds 5000. -/
theorem unfunded_deploy_mints :
    let tx := Sample.transaction .contractDeploy 1 none 5000 3
    let after := executeTransaction Sample.sha3 Sample.funded tx
    after.1.success = true ∧ balanceOf Sample.funded.state tx.sender = 1000 ∧
      totalBalance Sample.funded.state.accounts = 1000 ∧
      totalBalance after.2.state.accounts = 6000 ∧
      ¬ DeploysSafely Sample.funded.state after.2.state after.1.success
        (contractAddr Sample.sha3 tx) tx := by
  refine ⟨by decide, by decide, by decide, by decide, fun safely => ?_⟩
  exact absurd (safely.covered (by decide)) (by decide)

end ProtonChain.Vm
