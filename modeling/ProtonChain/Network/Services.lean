import ProtonChain.Network.BlockSync
import ProtonChain.Network.NetworkNode

/-! A node and the services that send through it.

The synchronizer of blocks and the broadcaster of transactions share one node. Until its event loop
begins each of them does what it does alone. From then on nothing that they hand over is sent: a
request for a new height waits without end, and so does the first flush of a batch, which keeps the
list of the broadcaster locked. What the serializer refuses is never sent, and no call waits for it.
-/

set_option autoImplicit false

namespace ProtonChain.Network

open Locks (Lock)

section Services
variable {PeerId : Type}

/-! ## Calls through the node -/

/-- What a broadcast of the message hands to the swarm. -/
def NetworkNode.handed (serde : Serde NetworkMessage) (node : NetworkNode PeerId)
    (message : NetworkMessage) : List NetworkMessage :=
  if node.swarm.held then [] else [message].filter serde.accepts

/-- The message of a flush: a batch goes to the shard of its first transaction. -/
def TxBroadcaster.batch (pending : List Transaction) : NetworkMessage :=
  .transactionBatch pending ((pending.head?.map (·.shardId)).getD 0)

/-- What a call returns, if it does, and what it has handed to the swarm. -/
structure ServiceReply where
  result : Option NodeReply
  sent : List NetworkMessage

section Network
variable (serde : Serde NetworkMessage) (network : NetworkNode PeerId)
  (publishFault : Option String)

/-- The height is noted before the request is sent. -/
def BlockSync.requestBlockOver (sync : BlockSync) (height : U64) (shardId : U16) :
    ServiceReply × BlockSync :=
  if (sync.knownBlocks.lookup height).isSome then (⟨some (.result (.ok ())), []⟩, sync)
  else if height ∈ sync.pendingRequests then (⟨some (.result (.ok ())), []⟩, sync)
  else
    let message := .blockRequest height shardId
    let (result, _) := network.broadcast serde message publishFault
    (⟨result.map .result, network.handed serde message⟩,
      { sync with pendingRequests := insert height sync.pendingRequests })

/-- The batch is taken out of the list before it is sent, and the list is locked meanwhile. -/
def TxBroadcaster.flushOver (broadcaster : TxBroadcaster) :
    TxBroadcaster.Answer × TxBroadcaster :=
  let (sent, pendingTxs) := broadcaster.pendingTxs.write fun pending =>
    if pending.value.isEmpty then (some [], pending)
    else
      let message := batch pending.value
      let (result, _) := network.broadcast serde message publishFault
      (result.map fun _ => network.handed serde message, { pending with value := [] })
  (sent, { broadcaster with pendingTxs := pendingTxs })

end Network

/-! ## The services of one node -/

variable (PeerId) in
structure Services where
  network : NetworkNode PeerId
  sync : BlockSync
  broadcasting : Broadcasting

variable (PeerId) in
inductive ServiceCall where
  | network (call : NodeCall PeerId)
  | requestBlock (height : U64) (shardId : U16) (publishFault : Option String)
  | receiveBlock (block : Block)
  | queueTransaction (tx : Transaction)
  | flush (publishFault : Option String)
  | startBatchTimer
  | tick (timer : Nat) (publishFault : Option String)

def batchReply (answer : TxBroadcaster.Answer) : ServiceReply :=
  ⟨answer.map fun _ => .done, answer.getD []⟩

namespace Services

def new (localPeerId : PeerId) (myAddress : Address) (shardId : U16) (batchSize : Nat) :
    Services PeerId where
  network := NetworkNode.new localPeerId myAddress shardId
  sync := BlockSync.new
  broadcasting := Broadcasting.new batchSize

variable [DecidableEq PeerId] (crates : Crates) (serde : Serde NetworkMessage)

/-- A call that fills a batch stops at the list, before it reaches the node. -/
def step (services : Services PeerId) : ServiceCall PeerId → ServiceReply × Services PeerId
  | .network call =>
    let (reply, network) := NetworkNode.step serde services.network call
    (⟨reply, []⟩, { services with network := network })
  | .requestBlock height shardId publishFault =>
    let (reply, sync) :=
      services.sync.requestBlockOver serde services.network publishFault height shardId
    (reply, { services with sync := sync })
  | .receiveBlock block =>
    (⟨some .done, []⟩, { services with sync := services.sync.receiveBlock crates block })
  | .queueTransaction tx =>
    let (sent, broadcaster) := services.broadcasting.broadcaster.queueTransaction tx
    (batchReply sent,
      { services with broadcasting := { services.broadcasting with broadcaster := broadcaster } })
  | .flush publishFault =>
    let (sent, broadcaster) :=
      services.broadcasting.broadcaster.flushOver serde services.network publishFault
    (batchReply sent,
      { services with broadcasting := { services.broadcasting with broadcaster := broadcaster } })
  | .startBatchTimer =>
    (⟨some .done, []⟩,
      { services with broadcasting := (services.broadcasting.step .startBatchTimer).2 })
  | .tick timer publishFault =>
    match services.broadcasting.timers[timer]? with
    | none => (⟨some .done, []⟩, services)
    | some clone =>
      let (sent, flushed) := clone.flushOver serde services.network publishFault
      (batchReply sent,
        { services with broadcasting :=
          { services.broadcasting with timers := services.broadcasting.timers.set timer flushed } })

end Services

/-! ## The services alone -/

namespace ServiceCall

def begins : ServiceCall PeerId → Bool
  | .network .runEventLoop => true
  | _ => false

/-- What the synchronizer sees of a call where the swarm is free. -/
def toSync (serde : Serde NetworkMessage) : ServiceCall PeerId → Option BlockSync.Call
  | .requestBlock height shardId publishFault =>
    some (.requestBlock height shardId
      (NetworkNode.published serde (.blockRequest height shardId) publishFault))
  | .receiveBlock block => some (.receiveBlock block)
  | _ => none

/-- What the broadcaster sees of a call. -/
def toBroadcasting : ServiceCall PeerId → Option Call
  | .queueTransaction tx => some (.queueTransaction tx)
  | .flush _ => some .flush
  | .startBatchTimer => some .startBatchTimer
  | .tick timer _ => some (.tick timer)
  | _ => none

end ServiceCall

def NetworkMessage.isRequest : NetworkMessage → Bool
  | blockRequest _ _ => true
  | _ => false

section Free
variable (serde : Serde NetworkMessage) {network : NetworkNode PeerId}
  (free : network.swarm.held = false) (publishFault : Option String)
include free

theorem broadcast_of_free (message : NetworkMessage) :
    network.broadcast serde message publishFault =
        (some (NetworkNode.published serde message publishFault), network) ∧
      network.handed serde message = [message].filter serde.accepts := by
  rw [NetworkNode.broadcast_eq, NetworkNode.handed, free]
  exact ⟨rfl, rfl⟩

theorem flushOver_of_free (broadcaster : TxBroadcaster) :
    broadcaster.flushOver serde network publishFault =
      (broadcaster.flush.1.map (List.filter serde.accepts), broadcaster.flush.2) := by
  obtain ⟨batchSize, ⟨locked, pending⟩⟩ := broadcaster
  unfold TxBroadcaster.flushOver TxBroadcaster.flush
  simp only [broadcast_of_free serde free publishFault, Option.map_some]
  cases locked with
  | true => rfl
  | false => cases pending <;> rfl

theorem requestBlockOver_of_free (sync : BlockSync) (height : U64) (shardId : U16) :
    ∃ answer, sync.requestBlock height shardId
          (NetworkNode.published serde (.blockRequest height shardId) publishFault) =
        (answer, (sync.requestBlockOver serde network publishFault height shardId).2) ∧
      (sync.requestBlockOver serde network publishFault height shardId).1 =
        ⟨some (.result answer.result), answer.sent.filter serde.accepts⟩ := by
  unfold BlockSync.requestBlockOver BlockSync.requestBlock
  split
  · exact ⟨_, rfl, rfl⟩
  · split
    · exact ⟨_, rfl, rfl⟩
    · exact ⟨_, rfl, by simp only [broadcast_of_free serde free publishFault, Option.map_some]⟩

end Free

section Held
variable (serde : Serde NetworkMessage) {network : NetworkNode PeerId}
  (held : network.swarm.held = true) (publishFault : Option String)
include held

theorem broadcast_of_held (message : NetworkMessage) :
    ((network.broadcast serde message publishFault).1.isSome ↔ serde.accepts message = false) ∧
      network.handed serde message = [] := by
  rw [NetworkNode.broadcast_eq, NetworkNode.handed, held]
  cases serde.accepts message <;> simp

/-- A list that nobody has locked is flushed to the end if it is empty, or if the serializer
refuses it. -/
theorem flushOver_of_held (broadcaster : TxBroadcaster) :
    (broadcaster.flushOver serde network publishFault).1.getD [] = [] ∧
      ((broadcaster.flushOver serde network publishFault).1.isSome ↔
        broadcaster.pendingTxs.held = false ∧ (broadcaster.pendingTxs.value = [] ∨
          serde.accepts (TxBroadcaster.batch broadcaster.pendingTxs.value) = false)) := by
  obtain ⟨batchSize, ⟨locked, pending⟩⟩ := broadcaster
  cases locked with
  | true => simp [TxBroadcaster.flushOver, Lock.write]
  | false =>
    have waits := broadcast_of_held serde held publishFault (TxBroadcaster.batch pending)
    cases pending with
    | nil => simp [TxBroadcaster.flushOver, Lock.write]
    | cons first rest =>
      rw [← waits.1]
      simp only [TxBroadcaster.flushOver, Lock.write, waits.2, List.isEmpty_cons,
        Bool.false_eq_true, if_false, reduceCtorEq, false_or, true_and]
      cases (network.broadcast serde (TxBroadcaster.batch (first :: rest)) publishFault).1 <;> simp

theorem requestBlockOver_of_held (sync : BlockSync) (height : U64) (shardId : U16) :
    (sync.requestBlockOver serde network publishFault height shardId).1.sent = [] ∧
      ((sync.requestBlockOver serde network publishFault height shardId).1.result.isSome ↔
        ¬ sync.Fresh height ∨ serde.accepts (.blockRequest height shardId) = false) ∧
      (sync.requestBlockOver serde network publishFault height shardId).2 =
        (sync.requestBlock height shardId
          (NetworkNode.published serde (.blockRequest height shardId) publishFault)).2 := by
  by_cases fresh : sync.Fresh height
  · rw [BlockSync.requestBlock_fresh _ _ fresh]
    simp [BlockSync.requestBlockOver, fresh, fresh.1, fresh.2,
      broadcast_of_held serde held publishFault]
  · rw [BlockSync.requestBlock_noted _ _ fresh]
    unfold BlockSync.requestBlockOver
    cases known : sync.knownBlocks.lookup height with
    | some hash => simp [fresh]
    | none =>
      have pending : height ∈ sync.pendingRequests := by
        by_contra missing
        exact fresh ⟨known, missing⟩
      simp [pending, fresh]

end Held

theorem flushOver_of_empty (serde : Serde NetworkMessage) (network : NetworkNode PeerId)
    (publishFault : Option String) {broadcaster : TxBroadcaster}
    (empty : broadcaster.pendingTxs = Lock.new []) :
    broadcaster.flushOver serde network publishFault = (some [], broadcaster) := by
  obtain ⟨batchSize, pendingTxs⟩ := broadcaster
  subst empty
  rfl

theorem flushOver_locked (serde : Serde NetworkMessage) (network : NetworkNode PeerId)
    (publishFault : Option String) (broadcaster : TxBroadcaster) :
    (broadcaster.flushOver serde network publishFault).2.pendingTxs.held =
      (broadcaster.flushOver serde network publishFault).1.isNone := by
  unfold TxBroadcaster.flushOver
  refine Lock.write_after ?_
  dsimp only
  split <;> rfl

theorem queueTransaction_locked (broadcaster : TxBroadcaster) (tx : Transaction) :
    (broadcaster.queueTransaction tx).2.pendingTxs.held =
      (broadcaster.queueTransaction tx).1.isNone := by
  unfold TxBroadcaster.queueTransaction
  refine Lock.write_after ?_
  dsimp only
  split
  · rw [TxBroadcaster.flush, Lock.write_held rfl]
  · rfl

/-- A call that hands in a transaction sends nothing: where it fills a batch it never returns. -/
theorem queueTransaction_sent (broadcaster : TxBroadcaster) (tx : Transaction) :
    (broadcaster.queueTransaction tx).1.getD [] = [] := by
  by_cases returns : (broadcaster.queueTransaction tx).1.isSome
  · obtain ⟨free, room⟩ := (Broadcasting.queueTransaction_isSome_iff broadcaster tx).mp returns
    rw [Broadcasting.queueTransaction_of_room free tx room]
    rfl
  · rw [Option.not_isSome_iff_eq_none.mp returns]
    rfl

theorem flush_batches (broadcaster : TxBroadcaster) :
    ∀ message ∈ broadcaster.flush.1.getD [], message.isRequest = false := by
  cases held : broadcaster.pendingTxs.held with
  | true =>
    unfold TxBroadcaster.flush
    rw [Lock.write_held held]
    exact fun message member => absurd member List.not_mem_nil
  | false =>
    cases waiting : broadcaster.pendingTxs.value with
    | nil =>
      unfold TxBroadcaster.flush
      rw [Lock.write_free held (by rw [waiting, List.isEmpty_nil, if_pos rfl])]
      exact fun message member => absurd member List.not_mem_nil
    | cons first rest =>
      unfold TxBroadcaster.flush
      rw [Lock.write_free held (by rw [waiting, List.isEmpty_cons, if_neg Bool.false_ne_true])]
      intro message member
      rw [List.mem_singleton.mp member]
      rfl

section Filters
variable {messages : List NetworkMessage}

theorem filter_batches (batches : ∀ message ∈ messages, message.isRequest = false)
    (accepts : NetworkMessage → Bool) :
    (messages.filter accepts).filter NetworkMessage.isRequest = [] ∧
      (messages.filter accepts).filter (fun message => !message.isRequest) =
        messages.filter accepts := by
  rw [List.filter_eq_nil_iff, List.filter_eq_self]
  exact ⟨fun message member => by simp [batches message (List.mem_of_mem_filter member)],
    fun message member => by simp [batches message (List.mem_of_mem_filter member)]⟩

theorem batchReply_sent (answer : TxBroadcaster.Answer) (accepts : NetworkMessage → Bool) :
    (batchReply (answer.map (List.filter accepts))).sent = (answer.getD []).filter accepts := by
  cases answer <;> rfl

end Filters

namespace Services
variable (crates : Crates) (serde : Serde NetworkMessage)

/-- The services on both sides of a call do what each of them does alone. -/
structure Alone (services : Services PeerId) (asked : List BlockSync.Call) (queued : List Call)
    (sent : List NetworkMessage) (after : Services PeerId) : Prop where
  sync : after.sync = (Runs.run (BlockSync.step crates) services.sync asked).2
  broadcasting : after.broadcasting = (Runs.run Broadcasting.step services.broadcasting queued).2
  requests : sent.filter NetworkMessage.isRequest =
    ((Runs.run (BlockSync.step crates) services.sync asked).1.flatMap
      BlockSync.Answer.sent).filter serde.accepts
  batches : sent.filter (fun message => !message.isRequest) =
    ((Runs.run Broadcasting.step services.broadcasting queued).1.flatMap
      fun answer => answer.getD []).filter serde.accepts

variable {crates serde} {services : Services PeerId}

theorem Alone.append {middle after : Services PeerId} {asked asked' : List BlockSync.Call}
    {queued queued' : List Call} {sent sent' : List NetworkMessage}
    (first : Alone crates serde services asked queued sent middle)
    (second : Alone crates serde middle asked' queued' sent' after) :
    Alone crates serde services (asked ++ asked') (queued ++ queued') (sent ++ sent') after where
  sync := by rw [Runs.run_append, ← first.sync, second.sync]
  broadcasting := by rw [Runs.run_append, ← first.broadcasting, second.broadcasting]
  requests := by
    rw [List.filter_append, Runs.run_append, List.flatMap_append, List.filter_append,
      first.requests, ← first.sync, second.requests]
  batches := by
    rw [List.filter_append, Runs.run_append, List.flatMap_append, List.filter_append,
      first.batches, ← first.broadcasting, second.batches]

theorem requestBlock_sent (sync : BlockSync) (height : U64) (shardId : U16)
    (broadcast : Except String Unit) :
    ∀ message ∈ (sync.requestBlock height shardId broadcast).1.sent, message.isRequest = true := by
  by_cases fresh : sync.Fresh height
  · rw [BlockSync.requestBlock_fresh shardId broadcast fresh]
    intro message member
    rw [List.mem_singleton.mp member]
    rfl
  · rw [BlockSync.requestBlock_noted shardId broadcast fresh]
    exact fun message member => absurd member List.not_mem_nil

variable [DecidableEq PeerId]

/-- Before the event loop each service does what it does alone. -/
theorem step_alone (free : services.network.swarm.held = false) (call : ServiceCall PeerId)
    (quiet : call.begins = false) :
    (step crates serde services call).2.network.swarm.held = false ∧
      Alone crates serde services (call.toSync serde).toList call.toBroadcasting.toList
        (step crates serde services call).1.sent (step crates serde services call).2 := by
  cases call with
  | network call =>
    refine ⟨?_, rfl, rfl, rfl, rfl⟩
    rw [← Bool.not_eq_true]
    change ¬ (NetworkNode.step serde services.network call).2.swarm.held = true
    rw [(NetworkNode.step_swarm serde services.network call).1, free]
    rintro (held | rfl)
    · cases held
    · cases quiet
  | requestBlock height shardId publishFault =>
    obtain ⟨answer, alone, through⟩ :=
      requestBlockOver_of_free serde free publishFault services.sync height shardId
    have requests := requestBlock_sent services.sync height shardId
      (NetworkNode.published serde (.blockRequest height shardId) publishFault)
    rw [alone] at requests
    have requested : ∀ message ∈ answer.sent.filter serde.accepts, message.isRequest = true :=
      fun message member => requests message (List.mem_of_mem_filter member)
    refine ⟨free, ?_, rfl, ?_, ?_⟩
    · simp [step, ServiceCall.toSync, Runs.run_cons, BlockSync.step, alone]
    · simp only [step, through, ServiceCall.toSync, Option.toList_some, Runs.run_cons, Runs.run_nil,
        BlockSync.step, alone, List.flatMap_singleton]
      exact List.filter_eq_self.mpr requested
    · simp only [step, through]
      rw [List.filter_eq_nil_iff.mpr fun message member => by simp [requested message member]]
      rfl
  | receiveBlock block => exact ⟨free, rfl, rfl, rfl, rfl⟩
  | queueTransaction tx =>
    have nothing := queueTransaction_sent services.broadcasting.broadcaster tx
    refine ⟨free, rfl, rfl, ?_, ?_⟩
    · simp only [step, batchReply, nothing]
      rfl
    · simp only [step, batchReply, nothing]
      simp [ServiceCall.toBroadcasting, Runs.run_cons, Broadcasting.step, nothing]
  | flush publishFault =>
    have batches := filter_batches (flush_batches services.broadcasting.broadcaster) serde.accepts
    simp only [step, flushOver_of_free serde free]
    refine ⟨free, rfl, rfl, ?_, ?_⟩
    · rw [batchReply_sent]
      exact batches.1
    · rw [batchReply_sent, batches.2]
      simp [ServiceCall.toBroadcasting, Runs.run_cons, Broadcasting.step]
  | startBatchTimer => exact ⟨free, rfl, rfl, rfl, rfl⟩
  | tick timer publishFault =>
    simp only [step]
    split
    next missing =>
      refine ⟨free, rfl, ?_, rfl, ?_⟩
      all_goals simp [ServiceCall.toBroadcasting, Runs.run_cons, Broadcasting.step, missing]
    next clone started =>
      have batches := filter_batches (flush_batches clone) serde.accepts
      simp only [flushOver_of_free serde free]
      refine ⟨free, rfl, ?_, ?_, ?_⟩
      · simp [ServiceCall.toBroadcasting, Runs.run_cons, Broadcasting.step, started]
      · rw [batchReply_sent]
        exact batches.1
      · rw [batchReply_sent, batches.2]
        simp [ServiceCall.toBroadcasting, Runs.run_cons, Broadcasting.step, started]

/-! ## Under the event loop -/

theorem step_silent (held : services.network.swarm.held = true) (call : ServiceCall PeerId) :
    (step crates serde services call).2.network.swarm.held = true ∧
      (step crates serde services call).1.sent = [] := by
  cases call with
  | network call =>
    exact ⟨(NetworkNode.step_swarm serde services.network call).1.mpr (.inl held), rfl⟩
  | requestBlock height shardId publishFault =>
    exact ⟨held, (requestBlockOver_of_held serde held publishFault services.sync height shardId).1⟩
  | receiveBlock | startBatchTimer => exact ⟨held, rfl⟩
  | queueTransaction tx =>
    exact ⟨held, queueTransaction_sent services.broadcasting.broadcaster tx⟩
  | flush publishFault =>
    exact ⟨held, (flushOver_of_held serde held publishFault services.broadcasting.broadcaster).1⟩
  | tick timer publishFault =>
    simp only [step]
    split
    next => exact ⟨held, rfl⟩
    next clone started => exact ⟨held, (flushOver_of_held serde held publishFault clone).1⟩

/-! ## Runs -/

section Runs

theorem run_alone (free : services.network.swarm.held = false) (calls : List (ServiceCall PeerId))
    (quiet : ∀ call ∈ calls, call.begins = false) :
    Alone crates serde services (calls.filterMap (ServiceCall.toSync serde))
      (calls.filterMap ServiceCall.toBroadcasting)
      ((Runs.run (step crates serde) services calls).1.flatMap ServiceReply.sent)
      (Runs.run (step crates serde) services calls).2 := by
  induction calls generalizing services with
  | nil => exact ⟨rfl, rfl, rfl, rfl⟩
  | cons call rest ih =>
    obtain ⟨now, later⟩ := List.forall_mem_cons.mp quiet
    obtain ⟨stillFree, first⟩ := step_alone free call now
    have both := first.append (ih stillFree later)
    have split {A : Type} (view : ServiceCall PeerId → Option A) :
        (call :: rest).filterMap view = (view call).toList ++ rest.filterMap view := by
      rw [List.filterMap_cons]
      cases view call <;> rfl
    rw [split, split, Runs.run_cons, List.flatMap_cons]
    exact both

theorem run_silent (held : services.network.swarm.held = true)
    (calls : List (ServiceCall PeerId)) :
    (Runs.run (step crates serde) services calls).1.flatMap ServiceReply.sent = [] := by
  induction calls generalizing services with
  | nil => rfl
  | cons call rest ih =>
    have first : (step crates serde services call).2.network.swarm.held = true ∧
        (step crates serde services call).1.sent = [] := step_silent held call
    rw [Runs.run_cons, List.flatMap_cons, first.2, List.nil_append, ih first.1]

end Runs

/-! ## What a call leaves behind -/

/-- The timers have nothing to flush. -/
structure Ready (batchSize : Nat) (services : Services PeerId) : Prop where
  batchSize : services.broadcasting.broadcaster.batchSize = batchSize
  timers : ∀ clone ∈ services.broadcasting.timers, clone.pendingTxs = Lock.new []

def Stuck (crates : Crates) (serde : Serde NetworkMessage) (services : Services PeerId)
    (call : ServiceCall PeerId) : Prop :=
  call.toBroadcasting.isSome ∧ (step crates serde services call).1.result = none

theorem step_held_iff (services : Services PeerId) (call : ServiceCall PeerId) :
    (step crates serde services call).2.network.swarm.held = true ↔
      services.network.swarm.held = true ∨ call.begins = true := by
  cases call with
  | network call =>
    refine (NetworkNode.step_swarm serde services.network call).1.trans (or_congr Iff.rfl ?_)
    cases call <;> simp [ServiceCall.begins]
  | tick timer publishFault =>
    simp only [step, ServiceCall.begins, Bool.false_eq_true, or_false]
    split <;> rfl
  | requestBlock | receiveBlock | queueTransaction | flush | startBatchTimer =>
    simp [step, ServiceCall.begins]

theorem step_sync (services : Services PeerId) (call : ServiceCall PeerId) :
    (step crates serde services call).2.sync =
      (Runs.run (BlockSync.step crates) services.sync (call.toSync serde).toList).2 := by
  cases call with
  | requestBlock height shardId publishFault =>
    change (services.sync.requestBlockOver serde services.network publishFault height shardId).2 =
      (services.sync.requestBlock height shardId
        (NetworkNode.published serde (.blockRequest height shardId) publishFault)).2
    cases held : services.network.swarm.held with
    | true =>
      exact (requestBlockOver_of_held serde held publishFault services.sync height shardId).2.2
    | false =>
      obtain ⟨answer, alone, -⟩ :=
        requestBlockOver_of_free serde held publishFault services.sync height shardId
      rw [alone]
  | tick timer publishFault =>
    simp only [step]
    split <;> rfl
  | network | receiveBlock | queueTransaction | flush | startBatchTimer => rfl

theorem step_ready {batchSize : Nat} (ready : Ready batchSize services)
    (call : ServiceCall PeerId) : Ready batchSize (step crates serde services call).2 := by
  cases call with
  | tick timer publishFault =>
    simp only [step]
    split
    next => exact ready
    next clone started =>
      have empty := ready.timers clone (List.mem_of_getElem? started)
      rw [flushOver_of_empty serde services.network publishFault empty]
      refine ⟨ready.batchSize, fun other member => ?_⟩
      rcases List.mem_or_eq_of_mem_set member with before | rfl
      · exact ready.timers other before
      · exact empty
  | startBatchTimer =>
    refine ⟨ready.batchSize, ?_⟩
    simp only [step, Broadcasting.step, List.forall_mem_append, List.forall_mem_singleton]
    exact ⟨ready.timers, rfl⟩
  | network | requestBlock | receiveBlock | queueTransaction | flush =>
    exact ⟨ready.batchSize, ready.timers⟩

theorem step_locked_iff {batchSize : Nat} (ready : Ready batchSize services)
    (call : ServiceCall PeerId) :
    (step crates serde services call).2.broadcasting.broadcaster.pendingTxs.held = true ↔
      services.broadcasting.broadcaster.pendingTxs.held = true ∨
        Stuck crates serde services call := by
  cases call with
  | tick timer publishFault =>
    simp only [step, Stuck]
    split
    next => simp
    next clone started =>
      have empty := ready.timers clone (List.mem_of_getElem? started)
      simp [flushOver_of_empty serde services.network publishFault empty, batchReply]
  | queueTransaction tx =>
    simp only [step, Stuck, batchReply, queueTransaction_locked, Option.isNone_iff_eq_none,
      Option.map_eq_none_iff, ServiceCall.toBroadcasting, Option.isSome_some, true_and]
    refine (or_iff_right_of_imp fun locked => ?_).symm
    rw [TxBroadcaster.queueTransaction, Lock.write_held locked]
  | flush publishFault =>
    simp only [step, Stuck, batchReply, flushOver_locked, Option.isNone_iff_eq_none,
      Option.map_eq_none_iff, ServiceCall.toBroadcasting, Option.isSome_some, true_and]
    refine (or_iff_right_of_imp fun locked => ?_).symm
    rw [TxBroadcaster.flushOver, Lock.write_held locked]
  | network | requestBlock | receiveBlock | startBatchTimer =>
    simp [step, Stuck, ServiceCall.toBroadcasting, Broadcasting.step]

/-! ## Runs of the services of a node -/

section Runs
variable (crates serde) (localPeerId : PeerId) (myAddress : Address) (shardId : U16)
  (batchSize : Nat)

/-- The services after calls from any threads, in the order they take effect. -/
def after (calls : List (ServiceCall PeerId)) : Services PeerId :=
  (Runs.run (step crates serde) (new localPeerId myAddress shardId batchSize) calls).2

def sent (calls : List (ServiceCall PeerId)) : List NetworkMessage :=
  (Runs.run (step crates serde) (new localPeerId myAddress shardId batchSize) calls).1.flatMap
    ServiceReply.sent

theorem sent_after_begins (early later : List (ServiceCall PeerId)) {call : ServiceCall PeerId}
    (begins : call.begins = true) :
    sent crates serde localPeerId myAddress shardId batchSize (early ++ call :: later) =
      sent crates serde localPeerId myAddress shardId batchSize early := by
  unfold sent
  rw [Runs.run_append, List.flatMap_append, Runs.run_cons, List.flatMap_cons]
  generalize (Runs.run (step crates serde) _ early).2 = services
  have held : (step crates serde services call).2.network.swarm.held = true :=
    (step_held_iff services call).mpr (.inr begins)
  have nothing : (step crates serde services call).1.sent = [] := by
    cases call with
    | network => rfl
    | requestBlock | receiveBlock | queueTransaction | flush | startBatchTimer | tick =>
      cases begins
  rw [nothing, run_silent held, List.nil_append, List.append_nil]

/-- Of all that the services are asked to send, exactly that is handed to the swarm which each of
them sends alone before the event loop of the node begins, less what the serializer refuses. -/
theorem services_sent (calls : List (ServiceCall PeerId)) :
    ∃ early, early = calls.takeWhile (fun call => !call.begins) ∧
      (sent crates serde localPeerId myAddress shardId batchSize calls).filter
          NetworkMessage.isRequest =
        ((Runs.run (BlockSync.step crates) BlockSync.new
          (early.filterMap (ServiceCall.toSync serde))).1.flatMap
            BlockSync.Answer.sent).filter serde.accepts ∧
      (sent crates serde localPeerId myAddress shardId batchSize calls).filter
          (fun message => !message.isRequest) =
        ((Runs.run Broadcasting.step (Broadcasting.new batchSize)
          (early.filterMap ServiceCall.toBroadcasting)).1.flatMap
            fun answer => answer.getD []).filter serde.accepts := by
  refine ⟨_, rfl, ?_⟩
  have split : calls.takeWhile (fun call => !call.begins) ++
      calls.dropWhile (fun call => !call.begins) = calls := List.takeWhile_append_dropWhile
  have quiet : ∀ call ∈ calls.takeWhile (fun call => !call.begins), call.begins = false := by
    intro call member
    have passed := List.all_eq_true.mp List.all_takeWhile call member
    exact (Bool.not_eq_true' _).mp passed
  have early : sent crates serde localPeerId myAddress shardId batchSize calls =
      sent crates serde localPeerId myAddress shardId batchSize
        (calls.takeWhile fun call => !call.begins) := by
    cases rest : calls.dropWhile fun call => !call.begins with
    | nil =>
      rw [rest, List.append_nil] at split
      rw [split]
    | cons call later =>
      rw [rest] at split
      have first := List.head?_dropWhile_not (fun call : ServiceCall PeerId => !call.begins) calls
      rw [rest, List.head?_cons] at first
      have begins : call.begins = true := (Bool.not_eq_false' _).mp first
      nth_rewrite 1 [← split]
      exact sent_after_begins crates serde localPeerId myAddress shardId batchSize _ later begins
  have alone : Alone crates serde (new localPeerId myAddress shardId batchSize) _ _ _ _ :=
    run_alone rfl _ quiet
  rw [early]
  exact ⟨alone.requests, alone.batches⟩

/-! ### What returns -/

theorem sync_after (calls : List (ServiceCall PeerId)) :
    (after crates serde localPeerId myAddress shardId batchSize calls).sync =
      BlockSync.after crates (calls.filterMap (ServiceCall.toSync serde)) := by
  induction calls using List.reverseRecOn with
  | nil => rfl
  | append_singleton calls call ih =>
    have one : [call].filterMap (ServiceCall.toSync serde) = (call.toSync serde).toList := by
      cases seen : call.toSync serde <;> simp [seen]
    unfold after BlockSync.after at ih ⊢
    rw [Runs.run_concat, step_sync, ih, List.filterMap_append, one, Runs.run_append]

/-- A height has been asked for, or a block of it has come in. -/
def Noted (serde : Serde NetworkMessage) (height : U64) (calls : List (ServiceCall PeerId)) :
    Prop :=
  ∃ call ∈ calls, (call.toSync serde).map BlockSync.Call.height = some height

theorem not_fresh_iff (calls : List (ServiceCall PeerId)) (height : U64) :
    ¬ (after crates serde localPeerId myAddress shardId batchSize calls).sync.Fresh height ↔
      Noted serde height calls := by
  rw [sync_after, BlockSync.fresh_after_iff, ← ne_eq, ← Option.isSome_iff_ne_none,
    List.find?_isSome]
  unfold Noted
  constructor
  · rintro ⟨seen, member, about⟩
    obtain ⟨call, made, same⟩ := List.mem_filterMap.mp member
    exact ⟨call, made, by rw [same, Option.map_some, of_decide_eq_true about]⟩
  · rintro ⟨call, made, about⟩
    obtain ⟨seen, same, height⟩ := Option.map_eq_some_iff.mp about
    exact ⟨seen, List.mem_filterMap.mpr ⟨call, made, same⟩, decide_eq_true height⟩

theorem ready_after (calls : List (ServiceCall PeerId)) :
    Ready batchSize (after crates serde localPeerId myAddress shardId batchSize calls) := by
  have keep : ∀ (services : Services PeerId) call, Ready batchSize services →
      Ready batchSize (step crates serde services call).2 :=
    fun _ call ready => step_ready ready call
  exact Runs.run_keeps (step crates serde) keep
    ⟨rfl, fun _ member => absurd member List.not_mem_nil⟩ calls

theorem locked_after_iff (calls : List (ServiceCall PeerId)) :
    (after crates serde localPeerId myAddress shardId batchSize
        calls).broadcasting.broadcaster.pendingTxs.held = true ↔
      Runs.Occurs (step crates serde) (Stuck crates serde)
        (new localPeerId myAddress shardId batchSize) calls := by
  induction calls using List.reverseRecOn with
  | nil => simp [after, new, Broadcasting.new, TxBroadcaster.new, Lock.new, Runs.Occurs]
  | append_singleton calls call ih =>
    have ready := ready_after crates serde localPeerId myAddress shardId batchSize calls
    rw [Runs.occurs_concat, ← ih]
    unfold after at ready ⊢
    rw [Runs.run_concat]
    exact step_locked_iff ready call

theorem held_after (early later : List (ServiceCall PeerId)) :
    (after crates serde localPeerId myAddress shardId batchSize
      (early ++ .network .runEventLoop :: later)).network.swarm.held = true := by
  unfold after
  rw [Runs.run_append, Runs.run_cons]
  have keep : ∀ (services : Services PeerId) call, services.network.swarm.held = true →
      (step crates serde services call).2.network.swarm.held = true :=
    fun _ call held => (step_silent held call).1
  exact Runs.run_keeps (step crates serde) keep ((step_held_iff _ _).mpr (.inr rfl)) later

/-- Once the event loop has begun, a request returns exactly for a height that has been noted, and
a call to the broadcaster if all earlier ones have returned and it has nothing to send; both return
as well where the serializer refuses the message. -/
theorem services_return_iff (early later : List (ServiceCall PeerId)) (call : ServiceCall PeerId) :
    ∃ calls reached, calls = early ++ .network .runEventLoop :: later ∧
      reached = after crates serde localPeerId myAddress shardId batchSize calls ∧
      ((step crates serde reached call).1.result.isSome ↔
        match call with
        | .network call => ¬ NetworkNode.NeedsSwarm serde call
        | .requestBlock height shardId _ =>
          Noted serde height calls ∨ serde.accepts (.blockRequest height shardId) = false
        | .queueTransaction _ =>
          ¬ Runs.Occurs (step crates serde) (Stuck crates serde)
              (new localPeerId myAddress shardId batchSize) calls ∧
            reached.broadcasting.pending.length + 1 < batchSize
        | .flush _ =>
          ¬ Runs.Occurs (step crates serde) (Stuck crates serde)
              (new localPeerId myAddress shardId batchSize) calls ∧
            (reached.broadcasting.pending = [] ∨
              serde.accepts (TxBroadcaster.batch reached.broadcasting.pending) = false)
        | .receiveBlock _ | .startBatchTimer | .tick _ _ => True) := by
  refine ⟨_, _, rfl, rfl, ?_⟩
  have noted := not_fresh_iff crates serde localPeerId myAddress shardId batchSize
    (early ++ .network .runEventLoop :: later)
  have ready := ready_after crates serde localPeerId myAddress shardId batchSize
    (early ++ .network .runEventLoop :: later)
  have locked := locked_after_iff crates serde localPeerId myAddress shardId batchSize
    (early ++ .network .runEventLoop :: later)
  have held := held_after crates serde localPeerId myAddress shardId batchSize early later
  generalize after crates serde localPeerId myAddress shardId batchSize _ = reached at *
  rw [← locked, Bool.not_eq_true]
  cases call with
  | network call =>
    refine (NetworkNode.step_isSome_iff serde reached.network call).trans ?_
    cases call <;> simp [NetworkNode.NeedsSwarm, held]
  | requestBlock height shardId publishFault =>
    exact (requestBlockOver_of_held serde held publishFault reached.sync height shardId).2.1.trans
      (or_congr (noted height) Iff.rfl)
  | receiveBlock | startBatchTimer => exact iff_of_true rfl trivial
  | queueTransaction tx =>
    have returns := Broadcasting.queueTransaction_isSome_iff reached.broadcasting.broadcaster tx
    rw [ready.batchSize] at returns
    simp only [step, batchReply, Option.isSome_map]
    exact returns
  | flush publishFault =>
    have returns := (flushOver_of_held serde held publishFault reached.broadcasting.broadcaster).2
    simp only [step, batchReply, Option.isSome_map]
    exact returns
  | tick timer publishFault =>
    refine iff_of_true ?_ trivial
    simp only [step]
    split
    next => rfl
    next clone started =>
      have empty := ready.timers clone (List.mem_of_getElem? started)
      rw [flushOver_of_empty serde reached.network publishFault empty]
      rfl

end Runs

end Services

end Services

end ProtonChain.Network
