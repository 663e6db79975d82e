import ProtonChain.Multichain.Conservation

/-! Failed calls.

Both calls write the balance before the router has answered, and nothing takes
the write back. A failed call is without effect only where the write is.
-/

set_option autoImplicit false

namespace ProtonChain.Multichain

open ProtonChain.Consensus ProtonChain.Vm

/-- A call that answers with an error leaves shards and router as they were. -/
def RollsBack (manager : ShardManager) (call : CrossCall) : Prop :=
  ∀ message, (manager.call call).1 = .error message → (manager.call call).2 = manager

/-- A write of nothing to an account that is there already. -/
def WritesNothing (shard : Shard) (address : Address) (amount : U128) : Prop :=
  amount = 0 ∧ address ∈ shard.state.accounts

/-- Where the router refuses, nothing has been written. -/
def RefusedInTime (manager : ShardManager) : CrossCall → Prop
  | .process tx => ∀ shard ∈ manager.shards.lookup tx.sourceShard,
      tx.amount ≤ (shard.state.account tx.sender).balance →
        tx.txId ∈ manager.crossChainRouter.pendingTxs → WritesNothing shard tx.sender tx.amount
  | .receive tx => ∀ shard ∈ manager.shards.lookup tx.targetShard,
      tx.txId ∉ manager.crossChainRouter.pendingTxs → WritesNothing shard tx.receiver tx.amount

section Write
variable {manager : ShardManager} {shardId : U16} {shard : Shard}

theorem setBalance_eq_iff (state : ShardState) (address : Address) (balance : U128) :
    state.setBalance address balance = state ↔
      address ∈ state.accounts ∧ (state.account address).balance = balance := by
  have accounts : state.setBalance address balance = state ↔
      (state.setBalance address balance).accounts = state.accounts := by
    constructor
    · exact congrArg ShardState.accounts
    · intro same
      cases state
      exact congrArg (ShardState.mk · _ _ _) same
  rw [accounts, ShardState.setBalance, FiniteMap.insert_eq_self_iff]
  cases found : state.accounts.lookup address with
  | none =>
    have missing : address ∉ state.accounts := Finmap.lookup_eq_none.mp found
    exact iff_of_false nofun fun present => missing present.1
  | some account =>
    have present : address ∈ state.accounts := Finmap.mem_of_lookup_eq_some found
    have read : state.account address = account := by
      rw [ShardState.account, found, Option.getD_some]
    rw [read, Option.some.injEq, and_iff_right present]
    constructor
    · intro same
      exact congrArg Account.balance same
    · rintro rfl
      rfl

theorem writeBalance_eq_iff (found : manager.shards.lookup shardId = some shard)
    (address : Address) (balance : U128) :
    manager.writeBalance shardId shard address balance = manager ↔
      address ∈ shard.state.accounts ∧ (shard.state.account address).balance = balance := by
  have shards : manager.writeBalance shardId shard address balance = manager ↔
      (manager.writeBalance shardId shard address balance).shards = manager.shards := by
    constructor
    · exact congrArg ShardManager.shards
    · intro same
      cases manager
      exact congrArg (ShardManager.mk · _ _ _) same
  have state : { shard with state := shard.state.setBalance address balance } = shard ↔
      shard.state.setBalance address balance = shard.state := by
    constructor
    · exact congrArg Shard.state
    · intro same
      cases shard
      exact congrArg (Shard.mk _ · _ _) same
  rw [shards, ShardManager.writeBalance, FiniteMap.insert_eq_self_iff, found, Option.some.injEq,
    eq_comm, state, setBalance_eq_iff]

end Write

section Router
variable (router : CrossChainRouter)

theorem submit_refused {tx : CrossChainTransaction} (pending : tx.txId ∈ router.pendingTxs) :
    router.submitCrossTx tx = (.error "Transaction already pending", router) := by
  rw [CrossChainRouter.submitCrossTx, if_pos pending]

theorem submit_accepted {tx : CrossChainTransaction} (fresh : tx.txId ∉ router.pendingTxs) :
    (router.submitCrossTx tx).1 = .ok () := by
  rw [CrossChainRouter.submitCrossTx, if_neg fresh]

theorem confirm_refused {txId : Hash} (unknown : txId ∉ router.pendingTxs) (proof : Bytes) :
    router.confirmTx txId proof = (.error "Transaction not found", router) := by
  rw [CrossChainRouter.confirmTx, Finmap.lookup_eq_none.mpr unknown]

theorem confirm_accepted {txId : Hash} (pending : txId ∈ router.pendingTxs) (proof : Bytes) :
    (router.confirmTx txId proof).1 = .ok () := by
  obtain ⟨tx, found⟩ := Option.isSome_iff_exists.mp (Finmap.lookup_isSome.mpr pending)
  rw [CrossChainRouter.confirmTx, found]

end Router

section Calls
variable {manager : ShardManager} {call : CrossCall}

theorem rollsBack_of_ok (ok : (manager.call call).1 = .ok ()) : RollsBack manager call := by
  intro message failed
  rw [ok] at failed
  cases failed

theorem rollsBack_of_unchanged (same : (manager.call call).2 = manager) :
    RollsBack manager call := fun _ _ => same

theorem rollsBack_of_error {message : String} {after : ShardManager}
    (failed : manager.call call = (.error message, after)) :
    RollsBack manager call ↔ after = manager := by
  unfold RollsBack
  rw [failed]
  constructor
  · exact fun back => back message rfl
  · exact fun same _ _ => same

variable (manager) (tx : CrossChainTransaction)

theorem process_rollsBack_iff :
    RollsBack manager (.process tx) ↔ RefusedInTime manager (.process tx) := by
  cases found : manager.shards.lookup tx.sourceShard with
  | none =>
    refine iff_of_true (rollsBack_of_unchanged (process_missing manager tx found)) ?_
    intro shard here
    rw [found] at here
    cases here
  | some shard =>
    simp only [RefusedInTime, found, Option.mem_some_iff, forall_eq']
    by_cases paid : tx.amount ≤ (shard.state.account tx.sender).balance
    · rw [forall_prop_of_true paid]
      by_cases pending : tx.txId ∈ manager.crossChainRouter.pendingTxs
      · -- the debit stands, and the router is as before
        have known : { tx with status := CrossChainStatus.sourceConfirmed }.txId ∈
            manager.crossChainRouter.pendingTxs := pending
        have refused : manager.call (.process tx) = (.error "Transaction already pending",
            manager.writeBalance tx.sourceShard shard tx.sender
              ((shard.state.account tx.sender).balance - tx.amount)) := by
          simp only [ShardManager.call, ShardManager.processCrossChainTx, found,
            if_neg (BitVec.not_lt.mpr paid)]
          rw [submit_refused _ known]
          rfl
        have idle : (shard.state.account tx.sender).balance =
            (shard.state.account tx.sender).balance - tx.amount ↔ tx.amount = 0 := by
          bv_omega
        rw [forall_prop_of_true pending, rollsBack_of_error refused, writeBalance_eq_iff found,
          WritesNothing, idle, and_comm]
      · refine iff_of_true (rollsBack_of_ok ?_) fun known => absurd known pending
        simp only [ShardManager.call, ShardManager.processCrossChainTx, found,
          if_neg (BitVec.not_lt.mpr paid)]
        exact submit_accepted _ pending
    · refine iff_of_true (rollsBack_of_unchanged ?_) fun enough => absurd enough paid
      exact process_unpaid manager tx found (BitVec.not_le.mp paid)

theorem receive_rollsBack_iff :
    RollsBack manager (.receive tx) ↔ RefusedInTime manager (.receive tx) := by
  cases found : manager.shards.lookup tx.targetShard with
  | none =>
    refine iff_of_true (rollsBack_of_unchanged (receive_missing manager tx found)) ?_
    intro shard here
    rw [found] at here
    cases here
  | some shard =>
    simp only [RefusedInTime, found, Option.mem_some_iff, forall_eq']
    by_cases pending : tx.txId ∈ manager.crossChainRouter.pendingTxs
    · refine iff_of_true (rollsBack_of_ok ?_) fun unknown => absurd pending unknown
      simp only [ShardManager.call, ShardManager.receiveCrossChainTx, found]
      exact confirm_accepted _ pending _
    · have refused : manager.call (.receive tx) = (.error "Transaction not found",
          manager.writeBalance tx.targetShard shard tx.receiver
            ((shard.state.account tx.receiver).balance + tx.amount)) := by
        simp only [ShardManager.call, ShardManager.receiveCrossChainTx, found]
        rw [confirm_refused _ pending]
        rfl
      have idle : (shard.state.account tx.receiver).balance =
          (shard.state.account tx.receiver).balance + tx.amount ↔ tx.amount = 0 := by
        bv_omega
      rw [forall_prop_of_true pending, rollsBack_of_error refused, writeBalance_eq_iff found,
        WritesNothing, idle, and_comm]

end Calls

/-- A call that fails is without effect exactly if the router refuses no write but an
empty one. -/
theorem rollsBack_iff (manager : ShardManager) (call : CrossCall) :
    RollsBack manager call ↔ RefusedInTime manager call := by
  cases call with
  | process tx => exact process_rollsBack_iff manager tx
  | receive tx => exact receive_rollsBack_iff manager tx

/-- A message with an unknown id is refused, and the receiver has it all the same. -/
theorem refused_receive_credits :
    let after := Sample.manager.call (.receive Sample.payment)
    after.1 = .error "Transaction not found" ∧
      Sample.manager.balances = 105 ∧ after.2.balances = 145 ∧
      ¬ RollsBack Sample.manager (.receive Sample.payment) := by
  refine ⟨by decide, by decide, by decide, fun back => ?_⟩
  have same := back "Transaction not found" (by decide)
  exact absurd (congrArg ShardManager.balances same) (by decide)

end ProtonChain.Multichain
