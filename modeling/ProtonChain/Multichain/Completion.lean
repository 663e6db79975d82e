import ProtonChain.Multichain.Conservation

/-! Completed transactions.

The router files a completed id under the timestamp of its record and forgets the
record. Neither a timestamp nor an id that is on file is recognized later.
-/

set_option autoImplicit false

namespace ProtonChain.Multichain

open ProtonChain.Consensus

inductive RouterCall where
  | submit (tx : CrossChainTransaction)
  | confirm (txId : Hash) (proof : Bytes)

/-- A router and the ids it has confirmed, the latest first. -/
structure RouterLog where
  router : CrossChainRouter
  confirmed : List Hash

namespace RouterLog

def new : RouterLog := ⟨CrossChainRouter.new, []⟩

def call (log : RouterLog) : RouterCall → Except String Unit × RouterLog
  | .submit tx =>
    let (answer, router) := log.router.submitCrossTx tx
    (answer, { log with router := router })
  | .confirm txId proof =>
    let (answer, router) := log.router.confirmTx txId proof
    match answer with
    | .ok () => (answer, ⟨router, txId :: log.confirmed⟩)
    | .error _ => (answer, { log with router := router })

/-- No id is confirmed twice, and each confirmation is counted. -/
def Accounted (log : RouterLog) : Prop :=
  log.confirmed.Nodup ∧ log.router.getStats.completedCount = log.confirmed.length

instance : DecidablePred Accounted :=
  fun _ => inferInstanceAs (Decidable (_ ∧ _))

/-- A record is confirmed only while neither its timestamp nor its id is on file. -/
def Unfiled (log : RouterLog) : RouterCall → Prop
  | .submit _ => True
  | .confirm txId _ => ∀ record ∈ log.router.pendingTxs.lookup txId,
      record.timestamp ∉ log.router.completedTxs ∧
        ∀ timestamp ∈ log.router.completedTxs.keys,
          log.router.completedTxs.lookup timestamp ≠ some txId

/-- The ids on file are the confirmed ones, so the router can tell them by its own table. -/
structure Filed (log : RouterLog) : Prop where
  accounted : log.Accounted
  onFile : ∀ txId, txId ∈ log.confirmed ↔
    ∃ timestamp ∈ log.router.completedTxs.keys,
      log.router.completedTxs.lookup timestamp = some txId

theorem filed_new : Filed new where
  accounted := ⟨List.nodup_nil, rfl⟩
  onFile txId := by
    refine iff_of_false List.not_mem_nil ?_
    rintro ⟨timestamp, -, found⟩
    cases found

section Confirmation
variable {log : RouterLog} {txId : Hash} {proof : Bytes}

theorem submit_completedTxs (log : RouterLog) (tx : CrossChainTransaction) :
    (log.call (.submit tx)).2.router.completedTxs = log.router.completedTxs := by
  simp only [call, CrossChainRouter.submitCrossTx]
  split <;> rfl

theorem confirm_unknown (unknown : log.router.pendingTxs.lookup txId = none) :
    (log.call (.confirm txId proof)).2 = log := by
  simp only [call, CrossChainRouter.confirmTx, unknown]

variable {record : CrossChainTransaction}
  (pending : log.router.pendingTxs.lookup txId = some record)
include pending

theorem confirm_known :
    (log.call (.confirm txId proof)).2 =
      ⟨{ completedTxs := log.router.completedTxs.insert record.timestamp txId
         pendingTxs := log.router.pendingTxs.erase txId }, txId :: log.confirmed⟩ := by
  simp only [call, CrossChainRouter.confirmTx, pending]

/-- A confirmation is accounted for exactly if timestamp and id are both new. -/
theorem confirm_accounted_iff (accounted : log.Accounted) :
    (log.call (.confirm txId proof)).2.Accounted ↔
      record.timestamp ∉ log.router.completedTxs ∧ txId ∉ log.confirmed := by
  obtain ⟨once, counted⟩ := accounted
  change log.router.completedTxs.keys.card = log.confirmed.length at counted
  have count : (log.call (.confirm txId proof)).2.router.getStats.completedCount =
      log.confirmed.length + if record.timestamp ∈ log.router.completedTxs then 0 else 1 := by
    rw [confirm_known pending, ← counted]
    exact FiniteMap.card_keys_insert _ _ _
  have ids : (log.call (.confirm txId proof)).2.confirmed = txId :: log.confirmed := by
    rw [confirm_known pending]
  rw [Accounted, count, ids, List.nodup_cons, List.length_cons]
  by_cases taken : record.timestamp ∈ log.router.completedTxs
  · -- the count stays behind
    rw [if_pos taken]
    exact iff_of_false (fun both => absurd both.2 (by omega)) fun both => both.1 taken
  · rw [if_neg taken]
    constructor
    · intro both
      exact ⟨taken, both.1.1⟩
    · intro both
      exact ⟨⟨both.2, once⟩, rfl⟩

end Confirmation

theorem unfiled_confirm_iff {log : RouterLog} (filed : Filed log) {txId : Hash} {proof : Bytes}
    {record : CrossChainTransaction} (pending : log.router.pendingTxs.lookup txId = some record) :
    Unfiled log (.confirm txId proof) ↔
      record.timestamp ∉ log.router.completedTxs ∧ txId ∉ log.confirmed := by
  simp only [Unfiled, pending, Option.mem_some_iff, forall_eq', filed.onFile, not_exists, not_and,
    ne_eq]

/-- Only accounted confirmations are unfiled before. -/
theorem unfiled_of_accounted (log : RouterLog) (input : RouterCall) (filed : Filed log)
    (next : (log.call input).2.Accounted) : Unfiled log input := by
  cases input with
  | submit tx => trivial
  | confirm txId proof =>
    cases pending : log.router.pendingTxs.lookup txId with
    | none =>
      intro record here
      rw [pending] at here
      cases here
    | some record =>
      rw [unfiled_confirm_iff filed pending]
      exact (confirm_accounted_iff pending filed.accounted).mp next

theorem filed_call (log : RouterLog) (input : RouterCall) (filed : Filed log)
    (unfiled : Unfiled log input) : Filed (log.call input).2 := by
  cases input with
  | submit tx =>
    have same := submit_completedTxs log tx
    constructor
    · rw [Accounted, CrossChainRouter.getStats, same]
      exact filed.accounted
    · intro txId
      rw [same]
      exact filed.onFile txId
  | confirm txId proof =>
    cases pending : log.router.pendingTxs.lookup txId with
    | none =>
      rw [confirm_unknown pending]
      exact filed
    | some record =>
      rw [unfiled_confirm_iff filed pending] at unfiled
      constructor
      · exact (confirm_accounted_iff pending filed.accounted).mpr unfiled
      · intro other
        rw [confirm_known pending, List.mem_cons, filed.onFile]
        simp only [FiniteMap.keys_insert, Finset.exists_mem_insert, FiniteMap.lookup_insert,
          if_true, Option.some.injEq, eq_comm (a := txId)]
        -- an entry on file is not overwritten
        refine or_congr_right (exists_congr fun timestamp => and_congr_right fun old => ?_)
        have apart : timestamp ≠ record.timestamp := by
          rintro rfl
          exact unfiled.1 (Finmap.mem_keys.mp old)
        rw [if_neg apart]

end RouterLog

/-- Along a run every confirmation is new and counted exactly if no confirmed
record has its timestamp or its id on file. -/
theorem completion_iff (calls : List RouterCall) :
    Runs.Visits RouterLog.call RouterLog.Accounted RouterLog.new calls ↔
      Runs.Meets RouterLog.call RouterLog.Unfiled RouterLog.new calls :=
  Runs.visits_iff_meets_of_stronger _ (fun _ filed => filed.accounted) RouterLog.filed_call
    RouterLog.unfiled_of_accounted RouterLog.filed_new calls

/-- Two transactions of one timestamp, both confirmed, leave one completed id. -/
theorem equal_timestamps_lose_completion :
    let second := { Sample.payment with txId := ⟨List.Vector.replicate 32 1⟩ }
    let calls := [.submit Sample.payment, .submit second, .confirm Sample.payment.txId [1],
      .confirm second.txId [1]]
    (Runs.run RouterLog.call RouterLog.new calls).2.confirmed.length = 2 ∧
      (Runs.run RouterLog.call RouterLog.new calls).2.router.getStats.completedCount = 1 ∧
      ¬ Runs.Visits RouterLog.call RouterLog.Accounted RouterLog.new calls := by
  refine ⟨by decide, by decide, fun visits => ?_⟩
  exact absurd (visits _ [] (List.append_nil _).symm) (by decide)

end ProtonChain.Multichain
