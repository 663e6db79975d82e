import ProtonChain.Library.FiniteMap
import ProtonChain.Library.Runs
import ProtonChain.Multichain.ShardManager

/-! Conservation over shards and router.

Each call moves value between one account and one pending record. The total is
kept exactly where the two moves cancel, which the router's answer does not decide.
-/

set_option autoImplicit false

namespace ProtonChain.Multichain

open ProtonChain.Consensus ProtonChain.Vm

def ShardState.balances (state : ShardState) : Nat :=
  FiniteMap.total (fun account : Account => account.balance.toNat) state.accounts

def ShardState.balanceOf (state : ShardState) (address : Address) : Nat :=
  (state.account address).balance.toNat

namespace CrossChainRouter

def pendingAmount (router : CrossChainRouter) : Nat :=
  FiniteMap.total (fun tx : CrossChainTransaction => tx.amount.toNat) router.pendingTxs

def pendingOf (router : CrossChainRouter) (txId : Hash) : Nat :=
  FiniteMap.weightAt (fun tx : CrossChainTransaction => tx.amount.toNat) router.pendingTxs txId

end CrossChainRouter

namespace ShardManager

def balances (manager : ShardManager) : Nat :=
  FiniteMap.total (fun shard : Shard => shard.state.balances) manager.shards

def total (manager : ShardManager) : Nat :=
  manager.balances + manager.crossChainRouter.pendingAmount

end ShardManager

/-! ## What the parts of a call do to the total -/

theorem setBalance_balances (state : ShardState) (address : Address) (balance : U128) :
    (state.setBalance address balance).balances + state.balanceOf address =
      state.balances + balance.toNat := by
  have write := FiniteMap.total_insert (fun account : Account => account.balance.toNat)
    state.accounts address { state.account address with balance := balance }
  have old := FiniteMap.weightAt_getD (fun account : Account => account.balance.toNat)
    state.accounts address Account.default rfl
  rw [old] at write
  exact write

theorem writeBalance_balances (manager : ShardManager) {shardId : U16} {shard : Shard}
    (found : manager.shards.lookup shardId = some shard) (address : Address) (balance : U128) :
    (manager.writeBalance shardId shard address balance).balances + shard.state.balanceOf address =
      manager.balances + balance.toNat := by
  have write := FiniteMap.total_insert (fun shard : Shard => shard.state.balances) manager.shards
    shardId { shard with state := shard.state.setBalance address balance }
  have inner := setBalance_balances shard.state address balance
  rw [FiniteMap.weightAt_of_lookup _ _ found] at write
  change (manager.writeBalance shardId shard address balance).balances + shard.state.balances =
    manager.balances + (shard.state.setBalance address balance).balances at write
  omega

theorem submit_pendingAmount (router : CrossChainRouter) (tx : CrossChainTransaction) :
    (router.submitCrossTx tx).2.pendingAmount =
      router.pendingAmount + if tx.txId ∈ router.pendingTxs then 0 else tx.amount.toNat := by
  rw [CrossChainRouter.submitCrossTx]
  split
  · rfl
  · rename_i fresh
    rw [CrossChainRouter.pendingAmount, FiniteMap.total_insert_of_notMem _ _ _ fresh, Nat.add_comm]
    rfl

theorem confirm_pendingAmount (router : CrossChainRouter) (txId : Hash) (proof : Bytes) :
    (router.confirmTx txId proof).2.pendingAmount + router.pendingOf txId =
      router.pendingAmount := by
  rw [CrossChainRouter.confirmTx]
  cases found : router.pendingTxs.lookup txId with
  | none =>
    have nothing : router.pendingOf txId = 0 := FiniteMap.weightAt_of_missing _ _ found
    rw [nothing, Nat.add_zero]
  | some tx => exact FiniteMap.total_erase _ _ _

/-! ## What a call does to the total -/

section Calls
variable (manager : ShardManager) (tx : CrossChainTransaction)

/-- A debit whose id is pending already has no record of its own. -/
theorem process_total {shard : Shard} (found : manager.shards.lookup tx.sourceShard = some shard)
    (paid : tx.amount ≤ (shard.state.account tx.sender).balance) :
    (manager.processCrossChainTx tx).2.total +
        (if tx.txId ∈ manager.crossChainRouter.pendingTxs then tx.amount.toNat else 0) =
      manager.total := by
  have write := writeBalance_balances manager found tx.sender
    ((shard.state.account tx.sender).balance - tx.amount)
  have submit : (manager.crossChainRouter.submitCrossTx
      { tx with status := .sourceConfirmed }).2.pendingAmount =
        manager.crossChainRouter.pendingAmount +
          if tx.txId ∈ manager.crossChainRouter.pendingTxs then 0 else tx.amount.toNat :=
    submit_pendingAmount _ _
  have difference := BitVec.toNat_sub_of_le paid
  have enough : tx.amount.toNat ≤ shard.state.balanceOf tx.sender := BitVec.le_def.mp paid
  rw [ShardState.balanceOf] at write enough
  simp only [ShardManager.processCrossChainTx, found, if_neg (BitVec.not_lt.mpr paid)]
  change (manager.writeBalance tx.sourceShard shard tx.sender
    ((shard.state.account tx.sender).balance - tx.amount)).balances +
      (manager.crossChainRouter.submitCrossTx
        { tx with status := .sourceConfirmed }).2.pendingAmount + _ =
    manager.balances + manager.crossChainRouter.pendingAmount
  -- a known id leaves the debit without a record
  split at submit <;> rename_i pending
  · rw [if_pos pending]
    omega
  · rw [if_neg pending]
    omega

theorem process_unpaid {shard : Shard} (found : manager.shards.lookup tx.sourceShard = some shard)
    (short : (shard.state.account tx.sender).balance < tx.amount) :
    (manager.processCrossChainTx tx).2 = manager := by
  simp only [ShardManager.processCrossChainTx, found, if_pos short]

theorem process_missing (missing : manager.shards.lookup tx.sourceShard = none) :
    (manager.processCrossChainTx tx).2 = manager := by
  simp only [ShardManager.processCrossChainTx, missing]

/-- All that a debit can do: nothing, or the write to the source shard and the router's part. -/
theorem process_cases :
    (manager.processCrossChainTx tx).2 = manager ∨
      ∃ shard, manager.shards.lookup tx.sourceShard = some shard ∧
        tx.amount ≤ (shard.state.account tx.sender).balance ∧
        (manager.processCrossChainTx tx).2 =
          { manager.writeBalance tx.sourceShard shard tx.sender
              ((shard.state.account tx.sender).balance - tx.amount) with
            crossChainRouter := (manager.crossChainRouter.submitCrossTx
              { tx with status := .sourceConfirmed }).2 } := by
  cases found : manager.shards.lookup tx.sourceShard with
  | none => exact .inl (process_missing manager tx found)
  | some shard =>
    by_cases paid : tx.amount ≤ (shard.state.account tx.sender).balance
    · refine .inr ⟨shard, rfl, paid, ?_⟩
      simp only [ShardManager.processCrossChainTx, found, if_neg (BitVec.not_lt.mpr paid)]
    · exact .inl (process_unpaid manager tx found (BitVec.not_le.mp paid))

/-- The credit is the amount of the message, the release that of the record. -/
theorem receive_total {shard : Shard} (found : manager.shards.lookup tx.targetShard = some shard)
    (fits : shard.state.balanceOf tx.receiver + tx.amount.toNat < 2 ^ 128) :
    (manager.receiveCrossChainTx tx).2.total + manager.crossChainRouter.pendingOf tx.txId =
      manager.total + tx.amount.toNat := by
  have write := writeBalance_balances manager found tx.receiver
    ((shard.state.account tx.receiver).balance + tx.amount)
  have confirm := confirm_pendingAmount manager.crossChainRouter tx.txId [1]
  rw [BitVec.toNat_add_of_lt fits] at write
  rw [ShardState.balanceOf] at write
  simp only [ShardManager.receiveCrossChainTx, found]
  change (manager.writeBalance tx.targetShard shard tx.receiver
    ((shard.state.account tx.receiver).balance + tx.amount)).balances +
      (manager.crossChainRouter.confirmTx tx.txId [1]).2.pendingAmount + _ =
    manager.balances + manager.crossChainRouter.pendingAmount + _
  omega

theorem receive_missing (missing : manager.shards.lookup tx.targetShard = none) :
    (manager.receiveCrossChainTx tx).2 = manager := by
  simp only [ShardManager.receiveCrossChainTx, missing]

end Calls

/-! ## Runs -/

/-- The balance a call credits stays within its word. -/
def Fits (manager : ShardManager) : CrossCall → Prop
  | .process _ => True
  | .receive tx => ∀ shard ∈ manager.shards.lookup tx.targetShard,
      shard.state.balanceOf tx.receiver + tx.amount.toNat < 2 ^ 128

instance (manager : ShardManager) : DecidablePred (Fits manager)
  | .process _ => inferInstanceAs (Decidable True)
  | .receive tx => inferInstanceAs (Decidable (∀ shard ∈ manager.shards.lookup tx.targetShard,
      shard.state.balanceOf tx.receiver + tx.amount.toNat < 2 ^ 128))

/-- A debit that goes through has a fresh id or moves nothing; a credit has the
amount pending under its id. -/
def Matched (manager : ShardManager) : CrossCall → Prop
  | .process tx => ∀ shard ∈ manager.shards.lookup tx.sourceShard,
      tx.amount ≤ (shard.state.account tx.sender).balance →
        tx.txId ∈ manager.crossChainRouter.pendingTxs → tx.amount = 0
  | .receive tx => ∀ shard ∈ manager.shards.lookup tx.targetShard,
      tx.amount.toNat = manager.crossChainRouter.pendingOf tx.txId

instance (manager : ShardManager) : DecidablePred (Matched manager)
  | .process tx => inferInstanceAs (Decidable (∀ shard ∈ manager.shards.lookup tx.sourceShard,
      tx.amount ≤ (shard.state.account tx.sender).balance →
        tx.txId ∈ manager.crossChainRouter.pendingTxs → tx.amount = 0))
  | .receive tx => inferInstanceAs (Decidable (∀ _shard ∈ manager.shards.lookup tx.targetShard,
      tx.amount.toNat = manager.crossChainRouter.pendingOf tx.txId))

theorem process_keeps_iff (manager : ShardManager) (tx : CrossChainTransaction) :
    (manager.processCrossChainTx tx).2.total = manager.total ↔ Matched manager (.process tx) := by
  cases found : manager.shards.lookup tx.sourceShard with
  | none =>
    rw [process_missing manager tx found]
    exact iff_of_true rfl fun shard here => by rw [found] at here; cases here
  | some shard =>
    by_cases paid : tx.amount ≤ (shard.state.account tx.sender).balance
    · have moved := process_total manager tx found paid
      have zero : tx.amount = 0 ↔ tx.amount.toNat = 0 := BitVec.toNat_inj.symm
      simp only [Matched, found, Option.mem_some_iff, forall_eq', paid, forall_const, zero]
      split at moved <;> rename_i pending
      · simp only [pending, forall_const]
        omega
      · exact iff_of_true moved fun member => absurd member pending
    · rw [process_unpaid manager tx found (BitVec.not_le.mp paid)]
      refine iff_of_true rfl fun other here enough => ?_
      rw [found, Option.mem_some_iff] at here
      exact absurd (here ▸ enough) paid

theorem receive_keeps_iff (manager : ShardManager) (tx : CrossChainTransaction)
    (fits : Fits manager (.receive tx)) :
    (manager.receiveCrossChainTx tx).2.total = manager.total ↔ Matched manager (.receive tx) := by
  cases found : manager.shards.lookup tx.targetShard with
  | none =>
    rw [receive_missing manager tx found]
    exact iff_of_true rfl fun shard here => by rw [found] at here; cases here
  | some shard =>
    have moved := receive_total manager tx found (fits shard found)
    simp only [Matched, found, Option.mem_some_iff, forall_eq']
    omega

theorem call_keeps_iff (manager : ShardManager) (call : CrossCall) (fits : Fits manager call) :
    (manager.call call).2.total = manager.total ↔ Matched manager call := by
  cases call with
  | process tx => exact process_keeps_iff manager tx
  | receive tx => exact receive_keeps_iff manager tx fits

/-- The total is the same all along a run exactly if every call is matched by
the pending records before it. -/
theorem conservation_iff (manager : ShardManager) (calls : List CrossCall)
    (fits : Runs.Meets ShardManager.call Fits manager calls) :
    Runs.Visits ShardManager.call (fun state => state.total = manager.total) manager calls ↔
      Runs.Meets ShardManager.call Matched manager calls := by
  have exact : ∀ state call, True → state.total = manager.total → Fits state call →
      ((state.call call).2.total = manager.total ↔ Matched state call) := by
    intro state call _ same fit
    rw [← same]
    exact call_keeps_iff state call fit
  exact Runs.visits_iff_meets _ exact (fun _ _ _ _ => trivial) rfl trivial calls fits

/-! ## Two shards -/

namespace Sample

def shard (shardId : U16) (owner : UInt8) (balance : U128) : Shard where
  config :=
    { shardId := shardId
      validators := []
      consensus := HotStuffConsensus.new ChainConfig.default ValidatorSet.new (Sample.address 0)
      vm :=
        { state :=
            { accounts := ∅
              contracts := ∅
              storage := ∅
              blockContext :=
                { height := 0, timestamp := 0, coinbase := Sample.address 0, difficulty := 1,
                  gasLimit := 50000000 } }
          gasSchedule := GasSchedule.default }
      crossChainEnabled := true }
  state :=
    { accounts := Finmap.singleton (Sample.address owner)
        { Account.default with balance := balance }
      nonceTracker := ∅
      lastBlockHash := Hash.zero
      crossChainNonce := 0 }
  blockHeight := 0
  pendingCrossTxs := []

def manager : ShardManager :=
  { ShardManager.new ChainConfig.default CrossChainRouter.new with
    shards := ((∅ : HashMap U16 Shard).insert 0 (shard 0 1 100)).insert 1 (shard 1 2 5) }

def payment : CrossChainTransaction where
  txId := Hash.zero
  sourceShard := 0
  targetShard := 1
  sender := Sample.address 1
  receiver := Sample.address 2
  amount := 40
  nonce := 0
  status := .pending
  proof := none
  timestamp := 7

end Sample

theorem conservation_sample :
    Runs.Visits ShardManager.call (fun state => state.total = Sample.manager.total) Sample.manager
      [.process Sample.payment, .receive Sample.payment] :=
  (conservation_iff Sample.manager [.process Sample.payment, .receive Sample.payment]
    (by decide)).mpr (by decide)

/-- The same message received twice is credited twice, the second time along with an error. -/
theorem replayed_receive_mints :
    let calls := [.process Sample.payment, .receive Sample.payment, .receive Sample.payment]
    Runs.Meets ShardManager.call Fits Sample.manager calls ∧
      Sample.manager.total = 105 ∧
      (Runs.run ShardManager.call Sample.manager calls).2.total = 145 ∧
      ¬ Runs.Visits ShardManager.call (fun state => state.total = Sample.manager.total)
        Sample.manager calls := by
  refine ⟨by decide, by decide, by decide, fun visits => ?_⟩
  exact absurd (visits _ [] (List.append_nil _).symm) (by decide)

end ProtonChain.Multichain
