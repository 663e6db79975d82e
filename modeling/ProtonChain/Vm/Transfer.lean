import ProtonChain.Vm.Effects

/-! Balance conservation of transfers.

A transfer between two accounts moves the value and burns the gas cost. A
transfer to its own sender keeps only the receiver's entry of the change map, so
the value is credited, nothing is debited and the nonce stays.
-/

set_option autoImplicit false

namespace ProtonChain.Vm

def totalBalance (accounts : HashMap Address Account) : Nat :=
  FiniteMap.total (fun account => account.balance.toNat) accounts

def balanceOf (state : VMState) (address : Address) : Nat :=
  (state.account address).balance.toNat

def nonceOf (state : VMState) (address : Address) : Nat :=
  (state.account address).nonce.toNat

/-- Cost and credit stay below the width of a balance. -/
structure AmountsFit (state : VMState) (tx : Transaction) : Prop where
  cost : tx.value.toNat + tx.gasPrice.toNat * tx.gasLimit.toNat < 2 ^ 128
  credit : balanceOf state (receiverAddr tx) + tx.value.toNat < 2 ^ 128

/-- What a transfer is to do to the accounts. -/
structure Conserves (before after : VMState) (tx : Transaction) : Prop where
  total : totalBalance after.accounts + tx.gasCost.toNat = totalBalance before.accounts
  credited : receiverAddr tx ≠ tx.sender →
    balanceOf after (receiverAddr tx) = balanceOf before (receiverAddr tx) + tx.value.toNat
  debited : receiverAddr tx ≠ tx.sender →
    balanceOf after tx.sender + (tx.value.toNat + tx.gasCost.toNat) = balanceOf before tx.sender
  own : receiverAddr tx = tx.sender →
    balanceOf after tx.sender + tx.gasCost.toNat = balanceOf before tx.sender
  nonce : nonceOf after tx.sender = nonceOf before tx.sender + 1
  frame : ∀ address, address ≠ tx.sender → address ≠ receiverAddr tx →
    after.accounts.lookup address = before.accounts.lookup address

/-! ## Arithmetic without wrapping -/

theorem gasCost_eq_mod (tx : Transaction) :
    tx.gasCost.toNat = tx.gasPrice.toNat * tx.gasLimit.toNat % 2 ^ 128 := by
  have widened : (tx.gasLimit.setWidth 128).toNat = tx.gasLimit.toNat :=
    BitVec.toNat_setWidth_of_le (by decide)
  rw [Transaction.gasCost, BitVec.toNat_mul, widened]

theorem gasCost_toNat (tx : Transaction)
    (fits : tx.gasPrice.toNat * tx.gasLimit.toNat < 2 ^ 128) :
    tx.gasCost.toNat = tx.gasPrice.toNat * tx.gasLimit.toNat := by
  rw [gasCost_eq_mod]
  exact Nat.mod_eq_of_lt fits

theorem totalCost_toNat (tx : Transaction)
    (fits : tx.value.toNat + tx.gasPrice.toNat * tx.gasLimit.toNat < 2 ^ 128) :
    (totalCost tx).toNat = tx.value.toNat + tx.gasCost.toNat := by
  have gas := gasCost_toNat tx (by omega)
  exact BitVec.toNat_add_of_lt (by omega)

theorem debit_toNat {balance cost : U128} (covered : cost ≤ balance) :
    (balance + -cost).toNat + cost.toNat = balance.toNat := by
  rw [← BitVec.sub_eq_add_neg, BitVec.toNat_sub_of_le covered]
  have := BitVec.le_def.mp covered
  omega

/-! ## The total over all accounts -/

theorem weightAt_accounts (state : VMState) (address : Address) :
    FiniteMap.weightAt (fun account : Account => account.balance.toNat) state.accounts address =
      balanceOf state address :=
  FiniteMap.weightAt_getD _ _ _ Account.default rfl

theorem transferred_accounts (vm : ProtonVM) (tx : Transaction)
    (distinct : receiverAddr tx ≠ tx.sender) :
    (transferred vm tx).state.accounts =
      (vm.state.accounts.insert tx.sender
        ((transferred vm tx).state.account tx.sender)).insert (receiverAddr tx)
        ((transferred vm tx).state.account (receiverAddr tx)) := by
  apply Finmap.ext_lookup
  intro address
  by_cases receiver : address = receiverAddr tx
  · subst receiver
    rw [Finmap.lookup_insert, transferred_receiver, transferred_lookup, lookup_transferChanges,
      if_pos rfl, Option.elim_some]
  · rw [Finmap.lookup_insert_of_ne _ receiver]
    by_cases sender : address = tx.sender
    · subst sender
      rw [Finmap.lookup_insert, transferred_sender vm tx distinct, transferred_lookup,
        lookup_transferChanges, if_neg receiver, if_pos rfl, Option.elim_some]
    · rw [Finmap.lookup_insert_of_ne _ sender, transferred_frame vm tx sender receiver]

theorem transferred_total (vm : ProtonVM) (tx : Transaction)
    (distinct : receiverAddr tx ≠ tx.sender) :
    totalBalance (transferred vm tx).state.accounts + balanceOf vm.state tx.sender +
        balanceOf vm.state (receiverAddr tx) =
      totalBalance vm.state.accounts + balanceOf (transferred vm tx).state tx.sender +
        balanceOf (transferred vm tx).state (receiverAddr tx) := by
  -- two writes in a row, the second one to a key the first has left alone
  let weight : Account → Nat := fun account => account.balance.toNat
  let debited := vm.state.accounts.insert tx.sender ((transferred vm tx).state.account tx.sender)
  have first := FiniteMap.total_insert weight vm.state.accounts tx.sender
    ((transferred vm tx).state.account tx.sender)
  have second := FiniteMap.total_insert weight debited (receiverAddr tx)
    ((transferred vm tx).state.account (receiverAddr tx))
  have untouched : FiniteMap.weightAt weight debited (receiverAddr tx) =
      balanceOf vm.state (receiverAddr tx) := by
    rw [FiniteMap.weightAt, Finmap.lookup_insert_of_ne _ distinct]
    exact weightAt_accounts vm.state (receiverAddr tx)
  rw [weightAt_accounts] at first
  rw [untouched, ← transferred_accounts vm tx distinct] at second
  simp only [totalBalance, balanceOf, weight, debited] at *
  omega

/-! ## Conservation -/

section Conservation
variable {vm : ProtonVM} {tx : Transaction}

theorem transferred_conserves (fit : AmountsFit vm.state tx) (paid : Affordable vm.state tx)
    (distinct : receiverAddr tx ≠ tx.sender) (room : nonceOf vm.state tx.sender + 1 < 2 ^ 64) :
    Conserves vm.state (transferred vm tx).state tx := by
  have debit : balanceOf (transferred vm tx).state tx.sender +
      (tx.value.toNat + tx.gasCost.toNat) = balanceOf vm.state tx.sender := by
    rw [balanceOf, transferred_sender vm tx distinct, ← totalCost_toNat tx fit.cost]
    exact debit_toNat paid
  have credit : balanceOf (transferred vm tx).state (receiverAddr tx) =
      balanceOf vm.state (receiverAddr tx) + tx.value.toNat := by
    rw [balanceOf, transferred_receiver]
    exact BitVec.toNat_add_of_lt fit.credit
  have sum := transferred_total vm tx distinct
  refine ⟨by omega, fun _ => credit, fun _ => debit, fun same => absurd same distinct, ?_,
    fun address notSender notReceiver => transferred_frame vm tx notSender notReceiver⟩
  rw [nonceOf, transferred_sender vm tx distinct]
  exact BitVec.toNat_add_of_lt room

/-- The receiver's entry overwrites the sender's, so the nonce is not advanced. -/
theorem own_transfer_keeps_nonce (own : receiverAddr tx = tx.sender) :
    nonceOf (transferred vm tx).state tx.sender = nonceOf vm.state tx.sender := by
  have entry := transferred_receiver vm tx
  rw [own] at entry
  rw [nonceOf, entry, nonceOf]
  simp [AccountChange.applyTo, receiverChange]

theorem nonce_room_of_advance
    (advanced : nonceOf (transferred vm tx).state tx.sender = nonceOf vm.state tx.sender + 1) :
    nonceOf vm.state tx.sender + 1 < 2 ^ 64 := by
  rw [← advanced]
  exact ((transferred vm tx).state.account tx.sender).nonce.isLt

/-- A transfer does what it is to do exactly if it is refused, or moves value
between two accounts and the sender's nonce is not at its maximum. -/
theorem transfer_conserves_iff (sha3 : Sha3) (vm : ProtonVM) (tx : Transaction)
    (kind : IsTransfer tx) (fit : AmountsFit vm.state tx) :
    ((executeTransaction sha3 vm tx).1.success = true →
        Conserves vm.state (executeTransaction sha3 vm tx).2.state tx) ↔
      balanceOf vm.state tx.sender < tx.value.toNat + tx.gasPrice.toNat * tx.gasLimit.toNat ∨
        (receiverAddr tx ≠ tx.sender ∧ nonceOf vm.state tx.sender + 1 < 2 ^ 64) := by
  have cost := totalCost_toNat tx fit.cost
  rw [gasCost_toNat tx (by have := fit.cost; omega)] at cost
  rw [← cost, balanceOf, ← BitVec.lt_def, ← BitVec.not_le]
  change _ ↔ ¬ Affordable vm.state tx ∨ _
  rw [transfer_success_iff sha3 vm tx kind]
  by_cases paid : Affordable vm.state tx
  · simp only [paid, not_true, false_or, forall_const, execute_paid sha3 vm tx kind paid]
    constructor
    · intro conserves
      have distinct : receiverAddr tx ≠ tx.sender := by
        intro own
        -- one entry of the map survives, and it keeps the nonce
        have advanced := conserves.nonce
        rw [own_transfer_keeps_nonce own] at advanced
        omega
      exact ⟨distinct, nonce_room_of_advance conserves.nonce⟩
    · rintro ⟨distinct, room⟩
      exact transferred_conserves fit paid distinct room
  · simp [paid]

end Conservation

/-! ## Concrete machines -/

namespace Sample

def account (balance : U128) : Account := { Account.default with balance := balance }

def vm (accounts : HashMap Address Account) : ProtonVM where
  state :=
    { accounts := accounts
      contracts := ∅
      storage := ∅
      blockContext :=
        { height := 1, timestamp := 0, coinbase := Sample.address 0, difficulty := 1,
          gasLimit := 50000000 } }
  gasSchedule := GasSchedule.default

def transaction (kind : TransactionType) (sender : UInt8) (receiver : Option UInt8)
    (value gasPrice : U128) : Transaction where
  txType := kind
  nonce := 1
  sender := Sample.address sender
  receiver := receiver.map Sample.address
  value := value
  gasPrice := gasPrice
  gasLimit := 2
  data := []
  shardId := 0
  timestamp := 0
  signature := []
  stealthAddress := none
  zkProof := none
  encryptedAmount := none

def funded : ProtonVM := vm (Finmap.singleton (Sample.address 1) (account 1000))

end Sample

theorem transfer_conserves_sample :
    Conserves Sample.funded.state (executeTransaction Sample.sha3 Sample.funded
      (Sample.transaction .transfer 1 (some 2) 100 3)).2.state
      (Sample.transaction .transfer 1 (some 2) 100 3) :=
  (transfer_conserves_iff Sample.sha3 Sample.funded
    (Sample.transaction .transfer 1 (some 2) 100 3) (by decide) ⟨by decide, by decide⟩).mpr
    (.inr (by decide)) (by decide)

/-- A transfer of 100 to its own sender is accepted and leaves 1100 with the old nonce. -/
theorem own_transfer_mints :
    IsTransfer (Sample.transaction .transfer 1 (some 1) 100 3) ∧
      AmountsFit Sample.funded.state (Sample.transaction .transfer 1 (some 1) 100 3) ∧
      (executeTransaction Sample.sha3 Sample.funded
        (Sample.transaction .transfer 1 (some 1) 100 3)).1.success = true ∧
      balanceOf (executeTransaction Sample.sha3 Sample.funded
        (Sample.transaction .transfer 1 (some 1) 100 3)).2.state (Sample.address 1) = 1100 ∧
      ¬ Conserves Sample.funded.state (executeTransaction Sample.sha3 Sample.funded
        (Sample.transaction .transfer 1 (some 1) 100 3)).2.state
        (Sample.transaction .transfer 1 (some 1) 100 3) := by
  refine ⟨by decide, ⟨by decide, by decide⟩, by decide, by decide, ?_⟩
  intro conserves
  exact absurd conserves.nonce (by decide)

end ProtonChain.Vm
