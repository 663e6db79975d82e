import ProtonChain.Vm.Transfer

/-! The reported change map against the effect on the state.

A transfer applies the map it reports. A deployment reports a debit and a nonce
step for the sender that no code applies, and overwrites the account at the
contract address whatever it held.
-/

set_option autoImplicit false

namespace ProtonChain.Vm

def codeOf (state : VMState) (address : Address) : Option Bytes :=
  (state.contracts.lookup address).map ContractCode.code

/-- Listed accounts changed by their entry, all others did not change at all. -/
structure DescribesEffect (before after : VMState) (changes : HashMap Address AccountChange) :
    Prop where
  balance : ∀ address change, changes.lookup address = some change →
    (balanceOf after address : Int) = balanceOf before address + change.balanceDelta.toInt
  nonce : ∀ address change, changes.lookup address = some change →
    (nonceOf after address : Int) = nonceOf before address + change.nonceDelta.toInt
  code : ∀ address change, changes.lookup address = some change →
    codeOf after address = change.code.or (codeOf before address)
  accountFrame : ∀ address, changes.lookup address = none →
    after.accounts.lookup address = before.accounts.lookup address
  contractFrame : ∀ address, changes.lookup address = none →
    after.contracts.lookup address = before.contracts.lookup address

/-- No cast, sum or negation of the transfer leaves the range of its type. -/
structure ReportFits (state : VMState) (tx : Transaction) : Prop where
  cost : tx.value.toNat + tx.gasPrice.toNat * tx.gasLimit.toNat < 2 ^ 127
  credit : balanceOf state (receiverAddr tx) + tx.value.toNat < 2 ^ 128
  nonce : nonceOf state tx.sender + 1 < 2 ^ 64

theorem unchanged_describes (state : VMState) : DescribesEffect state state ∅ := by
  refine ⟨?_, ?_, ?_, fun _ _ => rfl, fun _ _ => rfl⟩ <;>
    · intro address change listed
      simp at listed

section Transfer
variable {vm : ProtonVM} {tx : Transaction}

theorem toInt_of_small {value : U128} (small : value.toNat < 2 ^ 127) :
    value.toInt = value.toNat :=
  BitVec.toInt_eq_toNat_of_lt (by omega)

theorem toInt_neg_of_small {value : U128} (small : value.toNat < 2 ^ 127) :
    (-value).toInt = -(value.toNat : Int) := by
  have proper : value ≠ BitVec.intMin 128 := by
    intro same
    rw [same] at small
    exact absurd small (by decide)
  rw [BitVec.toInt_neg_of_ne_intMin proper, toInt_of_small small]

theorem ReportFits.amounts (fit : ReportFits vm.state tx) : AmountsFit vm.state tx :=
  ⟨by have := fit.cost; omega, fit.credit⟩

theorem listed_cases {address : Address} {change : AccountChange}
    (listed : (transferChanges tx).lookup address = some change) :
    (address = receiverAddr tx ∧ change = receiverChange tx) ∨
      (address = tx.sender ∧ receiverAddr tx ≠ tx.sender ∧ change = senderChange tx) := by
  rw [lookup_transferChanges] at listed
  split at listed
  next receiver => exact .inl ⟨receiver, (Option.some.inj listed).symm⟩
  next other =>
    split at listed
    next sender => exact .inr ⟨sender, sender ▸ Ne.symm other, (Option.some.inj listed).symm⟩
    next => cases listed

theorem transferred_describes (fit : ReportFits vm.state tx) (paid : Affordable vm.state tx) :
    DescribesEffect vm.state (transferred vm tx).state (transferChanges tx) where
  balance := by
    intro address change listed
    have entry := transferred_account vm tx listed
    rw [balanceOf, entry]
    have cost := fit.cost
    rcases listed_cases listed with ⟨rfl, rfl⟩ | ⟨rfl, _, rfl⟩
    · have sum := BitVec.toNat_add_of_lt fit.credit
      simp only [AccountChange.applyTo, receiverChange]
      rw [toInt_of_small (by omega), sum]
      rfl
    · have total := totalCost_toNat tx fit.amounts.cost
      have gas := gasCost_toNat tx (by omega)
      have rest := debit_toNat paid
      simp only [AccountChange.applyTo, senderChange]
      rw [toInt_neg_of_small (by omega), balanceOf]
      omega
  nonce := by
    intro address change listed
    have entry := transferred_account vm tx listed
    rw [nonceOf, entry]
    rcases listed_cases listed with ⟨rfl, rfl⟩ | ⟨rfl, _, rfl⟩
    · simp [AccountChange.applyTo, receiverChange, nonceOf]
    · have step : ((vm.state.account tx.sender).nonce + (1 : U64)).toNat =
          nonceOf vm.state tx.sender + 1 := BitVec.toNat_add_of_lt fit.nonce
      simp only [AccountChange.applyTo, senderChange]
      rw [step]
      rfl
  code := by
    intro address change listed
    rcases listed_cases listed with ⟨_, rfl⟩ | ⟨_, _, rfl⟩ <;> rfl
  accountFrame := by
    intro address unlisted
    rw [transferred_lookup, unlisted, Option.elim_none]
  contractFrame := fun _ _ => rfl

end Transfer

section Deploy
variable {sha3 : Sha3} {vm : ProtonVM} {tx : Transaction}

theorem lookup_deployChanges (sha3 : Sha3) (tx : Transaction) (address : Address) :
    (deployChanges sha3 tx).lookup address =
      if address = contractAddr sha3 tx then some (deployContractChange tx)
      else if address = tx.sender then some (deploySenderChange tx) else none := by
  unfold deployChanges
  apply FiniteMap.lookup_insert_two

/-- A sender apart from the contract address is reported as debited and stays untouched. -/
theorem deployed_misreports (apart : contractAddr sha3 tx ≠ tx.sender) :
    ¬ DescribesEffect vm.state (deployed sha3 vm tx).state (deployChanges sha3 tx) := by
  intro describes
  have listed := lookup_deployChanges sha3 tx tx.sender
  rw [if_neg (Ne.symm apart), if_pos rfl] at listed
  have step := describes.nonce tx.sender _ listed
  have same : nonceOf (deployed sha3 vm tx).state tx.sender = nonceOf vm.state tx.sender := by
    rw [nonceOf, VMState.account, deployed_lookup, if_neg (Ne.symm apart)]
    rfl
  -- the entry promises a nonce step the deployment does not make
  have one : (deploySenderChange tx).nonceDelta.toInt = 1 := by simp [deploySenderChange]
  rw [same, one] at step
  omega

theorem deployed_account (sha3 : Sha3) (vm : ProtonVM) (tx : Transaction) :
    (deployed sha3 vm tx).state.account (contractAddr sha3 tx) = deployedAccount sha3 tx := by
  rw [VMState.account, deployed_lookup, if_pos rfl]
  rfl

theorem deploy_listed_own (own : contractAddr sha3 tx = tx.sender) {address : Address}
    {change : AccountChange} (listed : (deployChanges sha3 tx).lookup address = some change) :
    address = contractAddr sha3 tx ∧ change = deployContractChange tx := by
  rw [lookup_deployChanges] at listed
  split at listed
  next same => exact ⟨same, (Option.some.inj listed).symm⟩
  next other =>
    rw [if_neg (own ▸ other)] at listed
    cases listed

theorem deploy_unlisted_apart {address : Address}
    (unlisted : (deployChanges sha3 tx).lookup address = none) :
    address ≠ contractAddr sha3 tx := by
  rintro rfl
  rw [lookup_deployChanges, if_pos rfl] at unlisted
  cases unlisted

/-- Where the derived address is the sender's own, only an unused account is described. -/
theorem deployed_describes_iff (own : contractAddr sha3 tx = tx.sender)
    (small : tx.value.toNat < 2 ^ 127) :
    DescribesEffect vm.state (deployed sha3 vm tx).state (deployChanges sha3 tx) ↔
      balanceOf vm.state tx.sender = 0 ∧ nonceOf vm.state tx.sender = 0 := by
  have entry := deployed_account sha3 vm tx
  have balance : balanceOf (deployed sha3 vm tx).state (contractAddr sha3 tx) = tx.value.toNat := by
    rw [balanceOf, entry]
    rfl
  have nonce : nonceOf (deployed sha3 vm tx).state (contractAddr sha3 tx) = 0 := by
    rw [nonceOf, entry]
    rfl
  have credited : (deployContractChange tx).balanceDelta.toInt = tx.value.toNat :=
    toInt_of_small small
  have kept : (deployContractChange tx).nonceDelta.toInt = 0 := by simp [deployContractChange]
  constructor
  · intro describes
    have listed := lookup_deployChanges sha3 tx (contractAddr sha3 tx)
    rw [if_pos rfl] at listed
    have credit := describes.balance _ _ listed
    have step := describes.nonce _ _ listed
    rw [balance, credited, own] at credit
    rw [nonce, kept, own] at step
    omega
  · rintro ⟨noBalance, noNonce⟩
    refine ⟨?_, ?_, ?_, ?_, ?_⟩
    · intro address change listed
      obtain ⟨rfl, rfl⟩ := deploy_listed_own own listed
      rw [balance, credited, own, noBalance]
      omega
    · intro address change listed
      obtain ⟨rfl, rfl⟩ := deploy_listed_own own listed
      rw [nonce, kept, own, noNonce]
      rfl
    · intro address change listed
      obtain ⟨rfl, rfl⟩ := deploy_listed_own own listed
      rw [codeOf, deployed_contracts, if_pos rfl]
      rfl
    · intro address unlisted
      rw [deployed_lookup, if_neg (deploy_unlisted_apart unlisted)]
    · intro address unlisted
      rw [deployed_contracts, if_neg (deploy_unlisted_apart unlisted)]

end Deploy

/-- The report is exact for everything but deployments; a deployment is reported
exactly only onto an unused account of its own sender. -/
theorem stateChanges_describe_iff (sha3 : Sha3) (vm : ProtonVM) (tx : Transaction)
    (fit : ReportFits vm.state tx) :
    DescribesEffect vm.state (executeTransaction sha3 vm tx).2.state
        (executeTransaction sha3 vm tx).1.stateChanges ↔
      (tx.txType = .contractDeploy → contractAddr sha3 tx = tx.sender ∧
        balanceOf vm.state tx.sender = 0 ∧ nonceOf vm.state tx.sender = 0) := by
  rcases kind_cases tx with transfer | deploy | inert
  · have notDeploy : tx.txType ≠ .contractDeploy := by
      rcases transfer with same | same <;> simp [same]
    simp only [notDeploy, false_implies, iff_true]
    by_cases paid : Affordable vm.state tx
    · rw [execute_paid sha3 vm tx transfer paid]
      exact transferred_describes fit paid
    · rw [execute_short sha3 vm tx transfer paid]
      exact unchanged_describes vm.state
  · simp only [deploy, forall_const, execute_deploy sha3 vm tx deploy]
    -- the derived address decides whether the sender has an entry of its own
    by_cases own : contractAddr sha3 tx = tx.sender
    · simp only [own, true_and]
      exact deployed_describes_iff own (by have := fit.cost; omega)
    · simp only [own, false_and, iff_false]
      exact deployed_misreports own
  · obtain ⟨same, empty⟩ := execute_inert sha3 vm tx inert
    rw [same, empty]
    simp only [inert.2, false_implies, iff_true]
    exact unchanged_describes vm.state

theorem stateChanges_describe_sample :
    DescribesEffect Sample.funded.state
      (executeTransaction Sample.sha3 Sample.funded
        (Sample.transaction .transfer 1 (some 2) 100 3)).2.state
      (executeTransaction Sample.sha3 Sample.funded
        (Sample.transaction .transfer 1 (some 2) 100 3)).1.stateChanges :=
  (stateChanges_describe_iff Sample.sha3 Sample.funded
    (Sample.transaction .transfer 1 (some 2) 100 3) ⟨by decide, by decide, by decide⟩).mpr
    (by decide)

/-- A deployment by account 1 is reported to cost 6 and one nonce, and takes neither. -/
theorem deploy_misreported :
    ReportFits Sample.funded.state (Sample.transaction .contractDeploy 1 none 0 3) ∧
      ¬ DescribesEffect Sample.funded.state
        (executeTransaction Sample.sha3 Sample.funded
          (Sample.transaction .contractDeploy 1 none 0 3)).2.state
        (executeTransaction Sample.sha3 Sample.funded
          (Sample.transaction .contractDeploy 1 none 0 3)).1.stateChanges := by
  refine ⟨⟨by decide, by decide, by decide⟩, ?_⟩
  intro describes
  have step := describes.nonce (Sample.address 1)
    (deploySenderChange (Sample.transaction .contractDeploy 1 none 0 3)) (by decide)
  exact absurd step (by decide)

end ProtonChain.Vm
