import ProtonChain.Library.History
import ProtonChain.Multichain.Rollback

/-! Settlement of pending records.

The router is asked for the id alone. The credit follows the message, so message
and record have to agree on whom, where and how much.
-/

set_option autoImplicit false

namespace ProtonChain.Multichain

open ProtonChain.Consensus ProtonChain.Vm

/-- The record a debit leaves with the router. -/
def CrossChainTransaction.recorded (tx : CrossChainTransaction) : CrossChainTransaction :=
  { tx with status := .sourceConfirmed }

namespace ShardManager

def balanceAt (manager : ShardManager) (shardId : U16) (address : Address) : Nat :=
  (manager.shards.lookup shardId).elim 0 fun shard => shard.state.balanceOf address

def pendingTxs (manager : ShardManager) : HashMap Hash CrossChainTransaction :=
  manager.crossChainRouter.pendingTxs

end ShardManager

/-- The amount of the record goes to its receiver on its target shard, and nothing else moves. -/
def Credits (before after : ShardManager) (record : CrossChainTransaction) : Prop :=
  ∀ shardId address, after.balanceAt shardId address = before.balanceAt shardId address +
    if shardId = record.targetShard ∧ address = record.receiver then record.amount.toNat else 0

/-- A message that is accepted and moves a balance pays the record which an
earlier debit stored under its id, and uses it up. -/
def PaysRecord (earlier : List CrossCall) (before : ShardManager) (tx : CrossChainTransaction) :
    Prop :=
  let after := (before.receiveCrossChainTx tx).2
  (before.receiveCrossChainTx tx).1 = .ok () →
    (∃ shardId address, after.balanceAt shardId address ≠ before.balanceAt shardId address) →
      ∃ sent, .process sent ∈ earlier ∧ sent.txId = tx.txId ∧
        before.pendingTxs.lookup tx.txId = some sent.recorded ∧
        Credits before after sent.recorded ∧
        after.pendingTxs = before.pendingTxs.erase tx.txId

def SameCredit (record tx : CrossChainTransaction) : Prop :=
  tx.amount = record.amount ∧ tx.receiver = record.receiver ∧ tx.targetShard = record.targetShard

instance (record tx : CrossChainTransaction) : Decidable (SameCredit record tx) :=
  inferInstanceAs (Decidable (_ ∧ _ ∧ _))

/-- A message that differs from the record under its id is answered with an error. -/
def RejectsOthers (manager : ShardManager) (tx : CrossChainTransaction) : Prop :=
  ∀ record ∈ manager.pendingTxs.lookup tx.txId, ¬ SameCredit record tx →
    ∃ message, (manager.receiveCrossChainTx tx).1 = .error message

/-- Every message of a run is rejected or pays its record. -/
def Settles (manager : ShardManager) (calls : List CrossCall) : Prop :=
  ∀ earlier tx later, calls = earlier ++ .receive tx :: later →
    PaysRecord earlier (Runs.run ShardManager.call manager earlier).2 tx ∧
      RejectsOthers (Runs.run ShardManager.call manager earlier).2 tx

/-- A message agrees with the record pending under its id, and its credit stays
within the word. -/
def Agrees (manager : ShardManager) : CrossCall → Prop
  | .process _ => True
  | .receive tx => ∀ record ∈ manager.pendingTxs.lookup tx.txId,
      SameCredit record tx ∧ Fits manager (.receive tx)

instance (manager : ShardManager) : DecidablePred (Agrees manager)
  | .process _ => inferInstanceAs (Decidable True)
  | .receive tx => inferInstanceAs (Decidable (∀ record ∈ manager.pendingTxs.lookup tx.txId,
      SameCredit record tx ∧ Fits manager (.receive tx)))

/-! ## Where records come from -/

/-- Every pending record was left by a debit of the run. -/
def Sourced (earlier : List CrossCall) (manager : ShardManager) : Prop :=
  ∀ txId record, manager.pendingTxs.lookup txId = some record →
    ∃ sent, .process sent ∈ earlier ∧ sent.txId = txId ∧ record = sent.recorded

section Pending
variable (manager : ShardManager) (tx : CrossChainTransaction)

theorem process_pendingTxs :
    (manager.processCrossChainTx tx).2.pendingTxs = manager.pendingTxs ∨
      (manager.processCrossChainTx tx).2.pendingTxs =
        manager.pendingTxs.insert tx.txId tx.recorded := by
  rcases process_cases manager tx with same | ⟨shard, -, -, after⟩
  · rw [same]
    exact .inl rfl
  · rw [after, ShardManager.pendingTxs, CrossChainRouter.submitCrossTx]
    split
    · exact .inl rfl
    · exact .inr rfl

theorem receive_pendingTxs {shard : Shard}
    (found : manager.shards.lookup tx.targetShard = some shard) :
    (manager.receiveCrossChainTx tx).2.pendingTxs = manager.pendingTxs.erase tx.txId := by
  simp only [ShardManager.receiveCrossChainTx, found, CrossChainRouter.confirmTx]
  split
  · rfl
  · rename_i unknown
    exact (FiniteMap.erase_of_notMem _ (Finmap.lookup_eq_none.mp unknown)).symm

end Pending

theorem sourced_call {earlier : List CrossCall} {manager : ShardManager}
    (sourced : Sourced earlier manager) (call : CrossCall) :
    Sourced (earlier ++ [call]) (manager.call call).2 := by
  -- an old record keeps its origin
  have old : Sourced (earlier ++ [call]) manager := by
    intro txId record found
    obtain ⟨sent, here, source⟩ := sourced txId record found
    exact ⟨sent, List.mem_append_left _ here, source⟩
  cases call with
  | process tx =>
    intro txId record found
    change (manager.processCrossChainTx tx).2.pendingTxs.lookup txId = some record at found
    rcases process_pendingTxs manager tx with same | inserted
    · rw [same] at found
      exact old txId record found
    · rw [inserted, FiniteMap.lookup_insert] at found
      split at found
      · rename_i own
        refine ⟨tx, List.mem_append_right _ (List.mem_singleton_self _), own.symm, ?_⟩
        exact (Option.some.inj found).symm
      · exact old txId record found
  | receive tx =>
    intro txId record found
    change (manager.receiveCrossChainTx tx).2.pendingTxs.lookup txId = some record at found
    cases target : manager.shards.lookup tx.targetShard with
    | none =>
      rw [receive_missing manager tx target] at found
      exact old txId record found
    | some shard =>
      rw [receive_pendingTxs manager tx target, FiniteMap.lookup_erase] at found
      split at found
      · cases found
      · exact old txId record found

theorem sourced_run {manager : ShardManager} (fresh : manager.pendingTxs = ∅)
    (calls : List CrossCall) : Sourced calls (Runs.run ShardManager.call manager calls).2 := by
  refine Runs.history ShardManager.call ?_ (fun earlier call => ?_) calls
  · intro txId record found
    rw [fresh] at found
    cases found
  · intro sourced
    exact sourced_call sourced call

/-! ## What one message does -/

section Message
variable {manager : ShardManager} {shard : Shard}

theorem writeBalance_balanceAt {shardId : U16} (found : manager.shards.lookup shardId = some shard)
    (address : Address) (balance : U128) (other : U16) (owner : Address) :
    (manager.writeBalance shardId shard address balance).balanceAt other owner =
      if other = shardId ∧ owner = address then balance.toNat
      else manager.balanceAt other owner := by
  unfold ShardManager.balanceAt ShardManager.writeBalance
  rw [FiniteMap.lookup_insert]
  by_cases here : other = shardId
  · subst here
    rw [if_pos rfl, found, Option.elim_some, Option.elim_some, ShardState.balanceOf,
      ShardState.account, ShardState.setBalance, FiniteMap.lookup_insert]
    by_cases own : owner = address
    · rw [if_pos own, if_pos ⟨rfl, own⟩]
      rfl
    · rw [if_neg own, if_neg fun both => own both.2]
      rfl
  · rw [if_neg here, if_neg fun both => here both.1]

variable {tx : CrossChainTransaction}

theorem receive_balanceAt (found : manager.shards.lookup tx.targetShard = some shard)
    (shardId : U16) (address : Address) :
    (manager.receiveCrossChainTx tx).2.balanceAt shardId address =
      if shardId = tx.targetShard ∧ address = tx.receiver then
        ((shard.state.account tx.receiver).balance + tx.amount).toNat
      else manager.balanceAt shardId address := by
  simp only [ShardManager.receiveCrossChainTx, found]
  exact writeBalance_balanceAt found _ _ _ _

theorem balanceAt_target (found : manager.shards.lookup tx.targetShard = some shard) :
    manager.balanceAt tx.targetShard tx.receiver = shard.state.balanceOf tx.receiver := by
  rw [ShardManager.balanceAt, found, Option.elim_some]

theorem receive_credits_iff (found : manager.shards.lookup tx.targetShard = some shard) :
    Credits manager (manager.receiveCrossChainTx tx).2 tx ↔
      shard.state.balanceOf tx.receiver + tx.amount.toNat < 2 ^ 128 := by
  constructor
  · intro credits
    have own := credits tx.targetShard tx.receiver
    rw [if_pos ⟨rfl, rfl⟩, receive_balanceAt found, if_pos ⟨rfl, rfl⟩, balanceAt_target found]
      at own
    rw [← own]
    exact BitVec.isLt _
  · intro fits shardId address
    rw [receive_balanceAt found]
    by_cases own : shardId = tx.targetShard ∧ address = tx.receiver
    · obtain ⟨rfl, rfl⟩ := own
      rw [if_pos ⟨rfl, rfl⟩, if_pos ⟨rfl, rfl⟩, balanceAt_target found]
      exact BitVec.toNat_add_of_lt fits
    · rw [if_neg own, if_neg own, Nat.add_zero]

/-- A credit that wraps around changes the balance. -/
theorem receive_moves (found : manager.shards.lookup tx.targetShard = some shard)
    (wraps : ¬ shard.state.balanceOf tx.receiver + tx.amount.toNat < 2 ^ 128) :
    ∃ shardId address, (manager.receiveCrossChainTx tx).2.balanceAt shardId address ≠
      manager.balanceAt shardId address := by
  refine ⟨tx.targetShard, tx.receiver, ?_⟩
  rw [receive_balanceAt found, if_pos ⟨rfl, rfl⟩, balanceAt_target found, BitVec.toNat_add]
  have small := tx.amount.isLt
  unfold ShardState.balanceOf at wraps ⊢
  have word := (shard.state.account tx.receiver).balance.isLt
  omega

theorem receive_answer (found : manager.shards.lookup tx.targetShard = some shard) :
    (manager.receiveCrossChainTx tx).1 =
      (manager.crossChainRouter.confirmTx tx.txId [1]).1 := by
  simp only [ShardManager.receiveCrossChainTx, found]

theorem receive_pending {record : CrossChainTransaction}
    (pending : manager.pendingTxs.lookup tx.txId = some record) :
    (manager.receiveCrossChainTx tx).1 = .ok () := by
  cases found : manager.shards.lookup tx.targetShard with
  | none => simp only [ShardManager.receiveCrossChainTx, found]
  | some shard =>
    rw [receive_answer found]
    exact confirm_accepted _ (Finmap.mem_of_lookup_eq_some pending) _

theorem rejectsOthers_iff :
    RejectsOthers manager tx ↔
      ∀ record ∈ manager.pendingTxs.lookup tx.txId, SameCredit record tx := by
  constructor
  · intro rejects record pending
    by_contra differs
    obtain ⟨message, failed⟩ := rejects record pending differs
    rw [receive_pending pending] at failed
    cases failed
  · intro same record pending differs
    exact absurd (same record pending) differs

/-- Without a record the message fails or meets no shard. -/
theorem paysRecord_of_unknown (earlier : List CrossCall)
    (unknown : manager.pendingTxs.lookup tx.txId = none) : PaysRecord earlier manager tx := by
  intro accepted moved
  exfalso
  cases found : manager.shards.lookup tx.targetShard with
  | none =>
    obtain ⟨shardId, address, changed⟩ := moved
    rw [receive_missing manager tx found] at changed
    exact changed rfl
  | some shard =>
    have refused := confirm_refused manager.crossChainRouter (Finmap.lookup_eq_none.mp unknown) [1]
    change (manager.receiveCrossChainTx tx).1 = .ok () at accepted
    rw [receive_answer found, refused] at accepted
    cases accepted

theorem sameCredit_credits {record : CrossChainTransaction} (same : SameCredit record tx)
    (before after : ShardManager) : Credits before after record ↔ Credits before after tx := by
  obtain ⟨amount, receiver, targetShard⟩ := same
  unfold Credits
  rw [amount, receiver, targetShard]

theorem paysRecord_iff_of_same {earlier : List CrossCall} (sourced : Sourced earlier manager)
    {record : CrossChainTransaction} (pending : manager.pendingTxs.lookup tx.txId = some record)
    (same : SameCredit record tx) :
    PaysRecord earlier manager tx ↔ Fits manager (.receive tx) := by
  cases found : manager.shards.lookup tx.targetShard with
  | none =>
    refine iff_of_true ?_ fun shard here => by rw [found] at here; cases here
    intro _ moved
    obtain ⟨shardId, address, changed⟩ := moved
    rw [receive_missing manager tx found] at changed
    exact absurd rfl changed
  | some shard =>
    have fits : Fits manager (.receive tx) ↔
        shard.state.balanceOf tx.receiver + tx.amount.toNat < 2 ^ 128 := by
      simp only [Fits, found, Option.mem_some_iff, forall_eq']
    rw [fits, ← receive_credits_iff found]
    constructor
    · intro pays
      by_contra wrong
      have wraps := mt (receive_credits_iff found).mpr wrong
      obtain ⟨sent, -, -, record', credits, -⟩ :=
        pays (receive_pending pending) (receive_moves found wraps)
      rw [pending, Option.some.injEq] at record'
      rw [← record', sameCredit_credits same] at credits
      exact wrong credits
    · intro credits _ _
      obtain ⟨sent, source, txId, rfl⟩ := sourced tx.txId record pending
      exact ⟨sent, source, txId, pending, (sameCredit_credits same _ _).mpr credits,
        receive_pendingTxs manager tx found⟩

theorem settles_message_iff {earlier : List CrossCall} (sourced : Sourced earlier manager) :
    PaysRecord earlier manager tx ∧ RejectsOthers manager tx ↔ Agrees manager (.receive tx) := by
  rw [rejectsOthers_iff]
  cases pending : manager.pendingTxs.lookup tx.txId with
  | none =>
    refine iff_of_true ⟨paysRecord_of_unknown earlier pending, nofun⟩ fun record here => ?_
    rw [pending] at here
    cases here
  | some record =>
    simp only [Agrees, pending, Option.mem_some_iff, forall_eq']
    constructor
    · rintro ⟨pays, same⟩
      exact ⟨same, (paysRecord_iff_of_same sourced pending same).mp pays⟩
    · rintro ⟨same, fits⟩
      exact ⟨(paysRecord_iff_of_same sourced pending same).mpr fits, same⟩

end Message

/-- Every message of a run settles its record exactly if it agrees with it. -/
theorem settlement_iff (manager : ShardManager) (fresh : manager.pendingTxs = ∅)
    (calls : List CrossCall) :
    Settles manager calls ↔ Runs.Meets ShardManager.call Agrees manager calls := by
  rw [Runs.meets_iff_forall]
  constructor
  · intro settles earlier call later split
    cases call with
    | process tx => trivial
    | receive tx =>
      exact (settles_message_iff (sourced_run fresh earlier)).mp (settles earlier tx later split)
  · intro agrees earlier tx later split
    exact (settles_message_iff (sourced_run fresh earlier)).mpr (agrees earlier _ later split)

theorem settlement_sample :
    Settles Sample.manager [.process Sample.payment, .receive Sample.payment] :=
  (settlement_iff Sample.manager rfl [.process Sample.payment, .receive Sample.payment]).mpr
    (by decide)

/-- A message with the id of the debit and more than its amount is accepted. -/
theorem forged_amount_is_credited :
    let forged := { Sample.payment with amount := 90 }
    ¬ Settles Sample.manager [.process Sample.payment, .receive forged] := by
  intro forged settles
  have others := (settles [.process Sample.payment] forged [] rfl).2
  obtain ⟨message, failed⟩ := others Sample.payment.recorded (by decide) (by decide)
  have accepted : ((Runs.run ShardManager.call Sample.manager
      [.process Sample.payment]).2.receiveCrossChainTx forged).1 = .ok () := by decide
  rw [accepted] at failed
  cases failed

end ProtonChain.Multichain
