import ProtonChain.Library.Lock
import ProtonChain.Library.Runs
import ProtonChain.Network.Message
import ProtonChain.Vm.Transfer

/-! Batches of transactions for the network.

Transactions wait in a list behind a lock until a batch is full or a flush sends what there
is. A full batch is flushed while the lock is still held by the call that has filled it, and
the timer flushes a copy of the broadcaster, whose list is one of its own.
-/

set_option autoImplicit false

namespace ProtonChain.Network

open Locks (Lock)

structure TxBroadcaster where
  batchSize : Nat
  pendingTxs : Lock (List Transaction)
  deriving DecidableEq

namespace TxBroadcaster

def new (batchSize : Nat) : TxBroadcaster := ⟨batchSize, Lock.new []⟩

/-- A call answers with what it hands to the network, or does not return. Whether the network
accepts a batch is not looked at. -/
abbrev Answer := Option (List NetworkMessage)

/-- Nothing is sent for an empty list; a batch goes to the shard of its first transaction. -/
def flush (broadcaster : TxBroadcaster) : Answer × TxBroadcaster :=
  let (sent, pendingTxs) := broadcaster.pendingTxs.write fun pending =>
    if pending.value.isEmpty then (some [], pending)
    else
      let shardId := (pending.value.head?.map (·.shardId)).getD 0
      (some [.transactionBatch pending.value shardId], { pending with value := [] })
  (sent, { broadcaster with pendingTxs := pendingTxs })

def queueTransaction (broadcaster : TxBroadcaster) (tx : Transaction) : Answer × TxBroadcaster :=
  let (sent, pendingTxs) := broadcaster.pendingTxs.write fun pending =>
    let pushed := { pending with value := pending.value ++ [tx] }
    if broadcaster.batchSize ≤ pushed.value.length then
      -- `self.flush()`, before the guard of this call is dropped
      let (sent, flushed) := flush { broadcaster with pendingTxs := pushed }
      (sent, flushed.pendingTxs)
    else (some [], pushed)
  (sent, { broadcaster with pendingTxs := pendingTxs })

/-- The `Clone` of the source starts with nothing pending. -/
def clone (broadcaster : TxBroadcaster) : TxBroadcaster :=
  { broadcaster with pendingTxs := Lock.new [] }

end TxBroadcaster

/-! ## Calls and ticks -/

/-- A broadcaster and the clones that its timers flush. -/
structure Broadcasting where
  broadcaster : TxBroadcaster
  timers : List TxBroadcaster
  deriving DecidableEq

inductive Call where
  | queueTransaction (tx : Transaction)
  | flush
  | startBatchTimer
  | tick (timer : Nat)
  deriving DecidableEq

namespace Broadcasting

def new (batchSize : Nat) : Broadcasting := ⟨TxBroadcaster.new batchSize, []⟩

def pending (state : Broadcasting) : List Transaction := state.broadcaster.pendingTxs.value

def step (state : Broadcasting) : Call → TxBroadcaster.Answer × Broadcasting
  | .queueTransaction tx =>
    let (sent, broadcaster) := state.broadcaster.queueTransaction tx
    (sent, { state with broadcaster := broadcaster })
  | .flush =>
    let (sent, broadcaster) := state.broadcaster.flush
    (sent, { state with broadcaster := broadcaster })
  | .startBatchTimer =>
    (some [], { state with timers := state.timers ++ [state.broadcaster.clone] })
  | .tick timer =>
    match state.timers[timer]? with
    | none => (some [], state)
    | some clone =>
      let (sent, flushed) := clone.flush
      (sent, { state with timers := state.timers.set timer flushed })

def sentTxs (answer : TxBroadcaster.Answer) : List Transaction :=
  (answer.getD []).flatMap NetworkMessage.txs

def queued : Call → Option Transaction
  | .queueTransaction tx => some tx
  | .flush | .startBatchTimer | .tick _ => none

/-- A tick of a started timer leaves nothing behind. -/
def Drains (state : Broadcasting) (call : Call) : Prop :=
  ∀ timer, call = .tick timer → timer < state.timers.length → (step state call).2.pending = []

/-- What the broadcaster is for. -/
structure Delivers (batchSize : Nat) (calls : List Call) : Prop where
  returns : ∀ answer ∈ (Runs.run step (new batchSize) calls).1, answer.isSome
  inOrder : (Runs.run step (new batchSize) calls).1.flatMap sentTxs ++
    (Runs.run step (new batchSize) calls).2.pending = calls.filterMap queued
  drains : Runs.Meets step Drains (new batchSize) calls

/-- The call does not fill a batch, or is a tick at which nothing waits. -/
def LeavesRoom (state : Broadcasting) : Call → Prop
  | .queueTransaction _ => state.pending.length + 1 < state.broadcaster.batchSize
  | .tick timer => timer < state.timers.length → state.pending = []
  | .flush | .startBatchTimer => True

/-! ## What one call does -/

section Calls
variable {broadcaster : TxBroadcaster} (free : broadcaster.pendingTxs.held = false)
include free

theorem flush_of_free :
    broadcaster.flush.1.isSome ∧ sentTxs broadcaster.flush.1 = broadcaster.pendingTxs.value ∧
      broadcaster.flush.2 = broadcaster.clone := by
  cases waiting : broadcaster.pendingTxs.value with
  | nil =>
    have returned : broadcaster.flush = (some [], broadcaster.clone) := by
      unfold TxBroadcaster.flush
      rw [Lock.write_free free (by rw [waiting, List.isEmpty_nil, if_pos rfl])]
      rfl
    simp [returned, sentTxs]
  | cons first rest =>
    have returned : broadcaster.flush =
        (some [.transactionBatch (first :: rest) first.shardId], broadcaster.clone) := by
      unfold TxBroadcaster.flush
      rw [Lock.write_free free (by rw [waiting, List.isEmpty_cons, if_neg Bool.false_ne_true])]
      rfl
    simp [returned, sentTxs, NetworkMessage.txs]

theorem queueTransaction_of_room (tx : Transaction)
    (room : broadcaster.pendingTxs.value.length + 1 < broadcaster.batchSize) :
    broadcaster.queueTransaction tx =
      (some [],
        { broadcaster with pendingTxs := ⟨false, broadcaster.pendingTxs.value ++ [tx]⟩ }) := by
  have unfilled : ¬ broadcaster.batchSize ≤ (broadcaster.pendingTxs.value ++ [tx]).length := by
    simp only [List.length_append, List.length_singleton]
    omega
  unfold TxBroadcaster.queueTransaction
  rw [Lock.write_free free (by rw [if_neg unfilled])]

end Calls

/-- The call that fills a batch waits for the lock that it holds itself. -/
theorem queueTransaction_isSome_iff (broadcaster : TxBroadcaster) (tx : Transaction) :
    (broadcaster.queueTransaction tx).1.isSome ↔
      broadcaster.pendingTxs.held = false ∧
        broadcaster.pendingTxs.value.length + 1 < broadcaster.batchSize := by
  unfold TxBroadcaster.queueTransaction
  simp only [Lock.write_isSome_iff, List.length_append, List.length_singleton]
  apply and_congr_right
  intro free
  by_cases filled : broadcaster.batchSize ≤ broadcaster.pendingTxs.value.length + 1
  · have stuck : (TxBroadcaster.flush
        { broadcaster with pendingTxs := ⟨true, broadcaster.pendingTxs.value ++ [tx]⟩ }).1 =
        none := by
      unfold TxBroadcaster.flush
      rw [Lock.write_held rfl]
    simp [filled, stuck]
  · simp only [if_neg filled, Option.isSome_some, true_iff]
    omega

theorem tick_pending (state : Broadcasting) (timer : Nat) :
    (step state (.tick timer)).2.pending = state.pending := by
  simp only [step]
  split <;> rfl

/-! ## Runs -/

/-- No call is under way, and the clones have nothing to send. -/
structure Idle (state : Broadcasting) : Prop where
  free : state.broadcaster.pendingTxs.held = false
  timers : ∀ clone ∈ state.timers, clone.pendingTxs = Lock.new []

theorem idle_new (batchSize : Nat) : Idle (new batchSize) :=
  ⟨rfl, fun _ member => absurd member List.not_mem_nil⟩

theorem step_of_room {state : Broadcasting} (idle : Idle state) {call : Call}
    (room : LeavesRoom state call) :
    (step state call).1.isSome ∧ Idle (step state call).2 ∧
      sentTxs (step state call).1 ++ (step state call).2.pending =
        state.pending ++ (queued call).toList := by
  cases call with
  | queueTransaction tx =>
    simp only [step, queueTransaction_of_room idle.free tx room]
    exact ⟨rfl, ⟨rfl, idle.timers⟩, rfl⟩
  | flush =>
    obtain ⟨returned, sent, cleared⟩ := flush_of_free idle.free
    simp only [step, pending, sent, cleared]
    exact ⟨returned, ⟨rfl, idle.timers⟩, rfl⟩
  | startBatchTimer =>
    refine ⟨rfl, ⟨idle.free, ?_⟩, by simp [step, sentTxs, pending, queued]⟩
    simp only [step, List.forall_mem_append, List.forall_mem_singleton]
    exact ⟨idle.timers, rfl⟩
  | tick timer =>
    simp only [step]
    split
    next => exact ⟨rfl, idle, by simp [sentTxs, queued]⟩
    next clone started =>
      -- the clone has been empty since it was made
      have empty := idle.timers clone (List.mem_of_getElem? started)
      have free : clone.pendingTxs.held = false := by
        rw [empty]
        rfl
      obtain ⟨returned, sent, cleared⟩ := flush_of_free free
      refine ⟨returned, ⟨idle.free, ?_⟩, by simp [sent, empty, Lock.new, pending, queued]⟩
      intro other member
      rcases List.mem_or_eq_of_mem_set member with before | same
      · exact idle.timers other before
      · rw [same, cleared]
        rfl

theorem run_of_room {state : Broadcasting} (idle : Idle state) (calls : List Call)
    (room : Runs.Meets step LeavesRoom state calls) :
    (∀ answer ∈ (Runs.run step state calls).1, answer.isSome) ∧
      (Runs.run step state calls).1.flatMap sentTxs ++ (Runs.run step state calls).2.pending =
        state.pending ++ calls.filterMap queued := by
  induction calls generalizing state with
  | nil => simp
  | cons call rest ih =>
    obtain ⟨returned, next, conserved⟩ := step_of_room idle room.1
    obtain ⟨later, remaining⟩ := ih next room.2
    rw [Runs.run_cons]
    refine ⟨List.forall_mem_cons.mpr ⟨returned, later⟩, ?_⟩
    rw [List.flatMap_cons, List.append_assoc, remaining, ← List.append_assoc, conserved,
      List.append_assoc, List.filterMap_cons]
    cases queued call <;> rfl

/-- The broadcaster does what it is for exactly in the runs in which no call fills a batch and
no timer ticks while something waits. -/
theorem delivers_iff (batchSize : Nat) (calls : List Call) :
    Delivers batchSize calls ↔ Runs.Meets step LeavesRoom (new batchSize) calls := by
  constructor
  · intro delivers
    have returns := (Runs.forall_answers_iff_meets step _ _ calls).mp delivers.returns
    have both := (Runs.meets_and step _ _ _ calls).mpr ⟨returns, delivers.drains⟩
    apply both.mono
    rintro state call ⟨returned, drained⟩
    cases call with
    | queueTransaction tx => exact ((queueTransaction_isSome_iff _ tx).mp returned).2
    | flush => trivial
    | startBatchTimer => trivial
    | tick timer =>
      intro started
      rw [← tick_pending state timer]
      exact drained timer rfl started
  · intro room
    obtain ⟨returns, conserved⟩ := run_of_room (idle_new batchSize) calls room
    refine ⟨returns, conserved, room.mono ?_⟩
    rintro state call met timer rfl started
    rw [tick_pending]
    exact met started

end Broadcasting

/-- The first transaction fills a batch of one, and a tick leaves the first of two behind. -/
theorem full_batch_is_not_delivered :
    ¬ Broadcasting.Delivers 1 [.queueTransaction (Vm.Sample.transaction .transfer 1 (some 2) 5 1)] ∧
      ¬ Broadcasting.Delivers 2 [.startBatchTimer,
        .queueTransaction (Vm.Sample.transaction .transfer 1 (some 2) 5 1), .tick 0] := by
  constructor
  · intro delivers
    exact absurd (delivers.returns none (by decide)) (by decide)
  · intro delivers
    exact absurd (delivers.drains.2.2.1 0 rfl (by decide)) (by decide)

end ProtonChain.Network
