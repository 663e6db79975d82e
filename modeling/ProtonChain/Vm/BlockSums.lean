import ProtonChain.Vm.BlockOrder

/-! The order of a block decided by sums of values and gas costs.

Where the balances leave room for all values of the block, the checks of the transfers come
down to one comparison for each: what a sender pays in all against what it starts from, or what
it starts from and receives in all against a single cost.
-/

set_option autoImplicit false

namespace ProtonChain.Vm

/-! ## Sums of values and costs -/

section Sums
variable {txs : List Transaction}

/-- What a paid transfer pays into an address. -/
def creditAt (tx : Transaction) (address : Address) : Nat :=
  if address = receiverAddr tx then tx.value.toNat else 0

/-- What a paid transfer takes from an address; its own receiver it takes nothing from. -/
def debitAt (tx : Transaction) (address : Address) : Nat :=
  if address = receiverAddr tx then 0
  else if address = tx.sender then (totalCost tx).toNat
  else 0

def received (txs : List Transaction) (address : Address) (paid : List (Fin txs.length)) : Nat :=
  (paid.map fun index => creditAt (txs.get index) address).sum

def spent (txs : List Transaction) (address : Address) (paid : List (Fin txs.length)) : Nat :=
  (paid.map fun index => debitAt (txs.get index) address).sum

/-- The transfers that their senders can pay at the start. -/
def payables (state : VMState) (txs : List Transaction) : List (Fin txs.length) :=
  payable state txs (List.finRange txs.length)

/-- Whoever can pay a transfer at the start can pay it with all other payable transfers of the
block, and whoever cannot is short of it with all that they pay. -/
structure SumsDecide (state : VMState) (txs : List Transaction) : Prop where
  covered : ∀ index, Payable state (txs.get index) →
    spent txs (txs.get index).sender ((payables state txs).erase index) +
        (totalCost (txs.get index)).toNat ≤
      (state.account (txs.get index).sender).balance.toNat
  short : ∀ index, IsTransfer (txs.get index) → ¬ Affordable state (txs.get index) →
    (state.account (txs.get index).sender).balance.toNat +
        received txs (txs.get index).sender (payables state txs) <
      (totalCost (txs.get index)).toNat

theorem received_concat (address : Address) (paid : List (Fin txs.length))
    (last : Fin txs.length) :
    received txs address (paid ++ [last]) =
      received txs address paid + creditAt (txs.get last) address := by
  simp [received]

theorem spent_concat (address : Address) (paid : List (Fin txs.length)) (last : Fin txs.length) :
    spent txs address (paid ++ [last]) =
      spent txs address paid + debitAt (txs.get last) address := by
  simp [spent]

theorem received_mono (address : Address) {paid all : List (Fin txs.length)}
    (sub : paid.Sublist all) : received txs address paid ≤ received txs address all :=
  (sub.map _).sum_le_sum fun _ _ => Nat.zero_le _

theorem spent_mono (address : Address) {paid all : List (Fin txs.length)}
    (sub : paid.Sublist all) : spent txs address paid ≤ spent txs address all :=
  (sub.map _).sum_le_sum fun _ _ => Nat.zero_le _

/-- Without wrapping a transfer adds its credit and takes its debit. -/
theorem add_amountAt (tx : Transaction) (address : Address) {balance : U128}
    (covered : debitAt tx address ≤ balance.toNat)
    (room : balance.toNat + creditAt tx address < 2 ^ 128) :
    (balance + amountAt tx address).toNat + debitAt tx address =
      balance.toNat + creditAt tx address := by
  unfold amountAt debitAt creditAt at *
  by_cases receives : address = receiverAddr tx
  · rw [if_pos receives] at room
    rw [if_pos receives, if_pos receives, if_pos receives, BitVec.toNat_add_of_lt room]
    rfl
  · rw [if_neg receives] at covered
    rw [if_neg receives, if_neg receives, if_neg receives]
    by_cases sends : address = tx.sender
    · rw [if_pos sends] at covered
      rw [if_pos sends, if_pos sends, ← BitVec.sub_eq_add_neg,
        BitVec.toNat_sub_of_le (BitVec.le_def.mpr covered)]
      omega
    · rw [if_neg sends, if_neg sends]
      exact congrArg BitVec.toNat (BitVec.add_zero balance)

/-- The balance with some transfers is what was there and came in, less what went out. -/
theorem balanceWith_toNat (state : VMState) (address : Address) (paid : List (Fin txs.length))
    (covered : spent txs address paid ≤ (state.account address).balance.toNat)
    (room : (state.account address).balance.toNat + received txs address paid < 2 ^ 128) :
    (balanceWith state txs address paid).toNat + spent txs address paid =
      (state.account address).balance.toNat + received txs address paid := by
  induction paid using List.reverseRecOn with
  | nil => rfl
  | append_singleton earlier last ih =>
    rw [spent_concat] at covered ⊢
    rw [received_concat] at room ⊢
    have before := ih (by omega) (by omega)
    have concat : balanceWith state txs address (earlier ++ [last]) =
        balanceWith state txs address earlier + amountAt (txs.get last) address := by
      simp [balanceWith]
    have enough : debitAt (txs.get last) address ≤
        (balanceWith state txs address earlier).toNat := by omega
    have moved := add_amountAt (txs.get last) address enough (by omega)
    rw [concat]
    omega

variable {state : VMState}

/-- The balances at the start leave room for all values that the block pays. -/
def HasRoom (state : VMState) (txs : List Transaction) : Prop :=
  ∀ address, (state.account address).balance.toNat +
    received txs address (payables state txs) < 2 ^ 128

theorem mem_payables {index : Fin txs.length} :
    index ∈ payables state txs ↔ Payable state (txs.get index) := by
  simp [payables, payable]

/-- No sender is debited more than the start balance. -/
theorem SumsDecide.spent_le (sums : SumsDecide state txs) (address : Address) :
    spent txs address (payables state txs) ≤ (state.account address).balance.toNat := by
  by_cases debited : ∃ index ∈ payables state txs, debitAt (txs.get index) address ≠ 0
  · obtain ⟨index, member, nonzero⟩ := debited
    have whole := List.sum_map_erase (fun index => debitAt (txs.get index) address) member
    have own := sums.covered index (mem_payables.mp member)
    unfold debitAt at nonzero
    split at nonzero
    · exact absurd rfl nonzero
    next apart =>
      split at nonzero
      next sends =>
        subst sends
        have debit : debitAt (txs.get index) (txs.get index).sender =
            (totalCost (txs.get index)).toNat := by
          rw [debitAt, if_neg apart, if_pos rfl]
        simp only [debit] at whole
        rw [spent] at own ⊢
        omega
      · exact absurd rfl nonzero
  · -- nothing is taken from it at all
    push Not at debited
    have nothing : spent txs address (payables state txs) = 0 := by
      refine List.sum_eq_zero fun amount member => ?_
      obtain ⟨index, listed, rfl⟩ := List.mem_map.mp member
      exact debited index listed
    omega

/-- The sums decide each check, whatever part of the block has been paid before. -/
theorem SumsDecide.transfers (sums : SumsDecide state txs) (room : HasRoom state txs)
    (index : Fin txs.length) (kind : IsTransfer (txs.get index)) {paid : List (Fin txs.length)}
    (sub : paid.Sublist (payables state txs)) (apart : index ∉ paid) :
    totalCost (txs.get index) ≤ balanceWith state txs (txs.get index).sender paid ↔
      Affordable state (txs.get index) := by
  have credits := received_mono (txs.get index).sender sub
  have fits := room (txs.get index).sender
  rw [Affordable, BitVec.le_def, BitVec.le_def]
  by_cases pays : Affordable state (txs.get index)
  · have own := sums.covered index ⟨kind, pays⟩
    have rest : paid.Sublist ((payables state txs).erase index) := by
      have erased := sub.erase index
      rwa [List.erase_of_not_mem apart] at erased
    have debits := spent_mono (txs.get index).sender rest
    have balance := balanceWith_toNat state (txs.get index).sender paid (by omega) (by omega)
    rw [Affordable, BitVec.le_def] at pays
    exact iff_of_true (by omega) pays
  · have short := sums.short index kind pays
    have debits := spent_mono (txs.get index).sender sub
    have all := sums.spent_le (txs.get index).sender
    have balance := balanceWith_toNat state (txs.get index).sender paid (by omega) (by omega)
    rw [Affordable, BitVec.le_def] at pays
    exact iff_of_false (by omega) pays

/-! ## The sums that the checks imply -/

/-- The transfers that pay into an address. -/
def receivers (txs : List Transaction) (address : Address) (paid : List (Fin txs.length)) :
    List (Fin txs.length) :=
  paid.filter fun index => address = receiverAddr (txs.get index)

def others (txs : List Transaction) (address : Address) (paid : List (Fin txs.length)) :
    List (Fin txs.length) :=
  paid.filter fun index => ¬ address = receiverAddr (txs.get index)

theorem spent_receivers (address : Address) (paid : List (Fin txs.length)) :
    spent txs address (receivers txs address paid) = 0 := by
  refine List.sum_eq_zero fun amount member => ?_
  obtain ⟨index, listed, rfl⟩ := List.mem_map.mp member
  rw [debitAt, if_pos (by simpa using (List.mem_filter.mp listed).2)]

theorem received_others (address : Address) (paid : List (Fin txs.length)) :
    received txs address (others txs address paid) = 0 := by
  refine List.sum_eq_zero fun amount member => ?_
  obtain ⟨index, listed, rfl⟩ := List.mem_map.mp member
  rw [creditAt, if_neg (by simpa using (List.mem_filter.mp listed).2)]

theorem received_receivers (address : Address) (paid : List (Fin txs.length)) :
    received txs address (receivers txs address paid) = received txs address paid := by
  have parts := List.sum_map_filter_add_sum_map_filter_not
    (fun index => address = receiverAddr (txs.get index))
    (fun index => creditAt (txs.get index) address) paid
  have nothing := received_others address paid
  rw [received, others] at nothing
  rw [received, received, receivers, ← parts, nothing, Nat.add_zero]

theorem spent_others (address : Address) (paid : List (Fin txs.length)) :
    spent txs address (others txs address paid) = spent txs address paid := by
  have parts := List.sum_map_filter_add_sum_map_filter_not
    (fun index => address = receiverAddr (txs.get index))
    (fun index => debitAt (txs.get index) address) paid
  have nothing := spent_receivers address paid
  rw [spent, receivers] at nothing
  rw [spent, spent, others, ← parts, nothing, Nat.zero_add]

theorem nodup_payables : (payables state txs).Nodup :=
  (List.nodup_finRange txs.length).filter _

/-- Transfers that pay nothing into an account cannot overdraw it where each check holds. -/
theorem BalancesDecide.spent_le {sha3 : Sha3} (balances : BalancesDecide sha3 state txs)
    {address : Address} {paid : List (Fin txs.length)} (sub : paid.Sublist (payables state txs))
    (nothing : received txs address paid = 0) :
    spent txs address paid ≤ (state.account address).balance.toNat := by
  induction paid using List.reverseRecOn with
  | nil => exact Nat.zero_le _
  | append_singleton earlier last ih =>
    rw [received_concat] at nothing
    have before := (List.sublist_append_left earlier [last]).trans sub
    have covered := ih before (by omega)
    have member : last ∈ payables state txs :=
      sub.subset (List.mem_append_right _ (List.mem_singleton_self last))
    have fresh : last ∉ earlier := by
      intro found
      have distinct := sub.nodup nodup_payables
      exact (List.nodup_append.mp distinct).2.2 last found last (List.mem_singleton_self last) rfl
    rw [spent_concat, debitAt]
    by_cases receives : address = receiverAddr (txs.get last)
    · rw [if_pos receives]
      omega
    · rw [if_neg receives]
      by_cases sends : address = (txs.get last).sender
      · -- the sender still covers this transfer after the earlier ones
        rw [if_pos sends]
        have pays := mem_payables.mp member
        have check := (balances.transfers last pays.1 earlier before fresh).mpr pays.2
        rw [← sends, BitVec.le_def] at check
        have small := (state.account address).balance.isLt
        have balance := balanceWith_toNat state address earlier covered (by omega)
        omega
      · rw [if_neg sends]
        omega

theorem BalancesDecide.sums {sha3 : Sha3} (balances : BalancesDecide sha3 state txs)
    (room : HasRoom state txs) : SumsDecide state txs where
  covered index pays := by
    -- the check after all other debits of the sender, none of which pays it anything
    let sender := (txs.get index).sender
    let rest := (payables state txs).erase index
    have sub : (others txs sender rest).Sublist (payables state txs) :=
      List.filter_sublist.trans List.erase_sublist
    have apart : index ∉ others txs sender rest := by
      intro member
      exact nodup_payables.not_mem_erase (List.mem_filter.mp member).1
    have nothing := received_others sender rest
    have debits := spent_others sender rest
    have check : totalCost (txs.get index) ≤
        balanceWith state txs sender (others txs sender rest) :=
      (balances.transfers index pays.1 _ sub apart).mpr pays.2
    have covered := balances.spent_le sub nothing
    have small := (state.account sender).balance.isLt
    have balance := balanceWith_toNat state sender (others txs sender rest) covered (by omega)
    rw [BitVec.le_def] at check
    show spent txs sender rest + _ ≤ (state.account sender).balance.toNat
    omega
  short index kind short := by
    -- the check after all credits of the sender, none of which takes anything from it
    let sender := (txs.get index).sender
    let credits := receivers txs sender (payables state txs)
    have sub : credits.Sublist (payables state txs) := List.filter_sublist
    have apart : index ∉ credits := by
      intro member
      exact short (mem_payables.mp (List.mem_filter.mp member).1).2
    have nothing : spent txs sender credits = 0 := spent_receivers sender (payables state txs)
    have all : received txs sender credits = received txs sender (payables state txs) :=
      received_receivers sender (payables state txs)
    have check : ¬ totalCost (txs.get index) ≤ balanceWith state txs sender credits :=
      (not_congr (balances.transfers index kind _ sub apart)).mpr short
    have fits := room sender
    have balance := balanceWith_toNat state sender credits (by omega) (by omega)
    rw [BitVec.le_def] at check
    show (state.account sender).balance.toNat + received txs sender (payables state txs) < _
    omega

end Sums

/-! ## Blocks that deploy nothing -/

/-- Without deployments the orders of a block agree exactly if each sender that can pay a
transfer at the start can pay all of them, and each that cannot pay one stays short of it with
all that the block pays into its account. -/
theorem agrees_iff_sums (sha3 : Sha3) (vm : ProtonVM) (txs : List Transaction)
    (plain : ∀ index : Fin txs.length, (txs.get index).txType ≠ .contractDeploy)
    (room : HasRoom vm.state txs) :
    AgreesWithSequential sha3 vm txs ↔ SumsDecide vm.state txs := by
  constructor
  · intro agrees
    exact (stable_of_agrees agrees).balances.sums room
  · intro sums
    have balances : BalancesDecide sha3 vm.state txs :=
      ⟨fun index kind _ sub apart => sums.transfers room index kind sub apart,
        fun _ _ deploy deploys => absurd deploys (plain deploy)⟩
    have calls : CallsDecided sha3 vm txs :=
      fun _ _ deploy deploys => absurd deploys (plain deploy)
    have kept : DeploymentsKept sha3 vm txs :=
      fun deploy _ _ deploys => absurd deploys (plain deploy)
    exact agrees_of_stable (stable_of_decided balances calls kept) kept

end ProtonChain.Vm
