import ProtonChain.Library.History
import ProtonChain.Library.Lock
import ProtonChain.Network.Message

/-! A node of the peer-to-peer network.

The event loop takes the lock of the swarm and never lets it go, so every later call that needs the
swarm waits without end. The records of peers and validators have locks of their own. What the swarm
answers to a call is part of the call; the node keeps of it only the topics it is subscribed to. A
message that the serializer refuses does not get as far as the swarm.
-/

set_option autoImplicit false

namespace ProtonChain.Network

open Locks (Lock)

/-! ## Calls and events -/

/-- What the event loop looks at; of other events it takes no notice. -/
inductive SwarmEvent (PeerId : Type) where
  | discovered (peers : List PeerId)
  | connectionEstablished (peer : PeerId)
  | connectionClosed (peer : PeerId)
  | other

/-- The faults that the swarm reports are texts of its own. -/
inductive NodeCall (PeerId : Type) where
  | start (listenFault : Option String) (subscribeFault : String → Option String)
  | runEventLoop
  | event (event : SwarmEvent PeerId)
  | broadcast (message : NetworkMessage) (publishFault : Option String)
  | sendToPeer (peer : PeerId) (message : NetworkMessage) (publishFault : Option String)
  | registerValidator (address : Address) (peer : PeerId)
  | peerCount
  | getStats

structure NetworkStats where
  peerCount : Nat
  validatorCount : Nat
  isConnected : Bool
  deriving DecidableEq

inductive NodeReply where
  | done
  | result (result : Except String Unit)
  | count (peers : Nat)
  | stats (stats : NetworkStats)

/-! ## The node -/

section Node
variable {PeerId : Type}

variable (PeerId) in
/-- The lock of the swarm guards the topics it is subscribed to. -/
structure NetworkNode where
  localPeerId : PeerId
  swarm : Lock (Finset String)
  connectedPeers : Finset PeerId
  validatorPeers : HashMap Address PeerId
  myAddress : Address
  shardId : U16

namespace NetworkNode

variable (serde : Serde NetworkMessage)

def new (localPeerId : PeerId) (myAddress : Address) (shardId : U16) : NetworkNode PeerId where
  localPeerId := localPeerId
  swarm := .new ∅
  connectedPeers := ∅
  validatorPeers := ∅
  myAddress := myAddress
  shardId := shardId

/-- Subscriptions before the first fault stay. -/
def subscribe (fault : String → Option String) :
    List String → Finset String → Except String Unit × Finset String
  | [], topics => (.ok (), topics)
  | topic :: rest, topics =>
    match fault topic with
    | some text => (.error ("Subscribe error: " ++ text), topics)
    | none => subscribe fault rest (insert topic topics)

def ownTopics : List String :=
  ["proton-blocks", "proton-transactions", "proton-consensus", "proton-crosschain"]

def start (node : NetworkNode PeerId) (listenFault : Option String)
    (subscribeFault : String → Option String) :
    Option (Except String Unit) × NetworkNode PeerId :=
  let (result, swarm) := node.swarm.write fun swarm =>
    match listenFault with
    | some text => (some (.error ("Listen error: " ++ text)), swarm)
    | none =>
      let (result, topics) := subscribe subscribeFault ownTopics swarm.value
      (some result, { swarm with value := topics })
  (result, { node with swarm := swarm })

/-- The loop has no end, and the guard of the swarm is dropped after it. -/
def runEventLoop (node : NetworkNode PeerId) : Option Unit × NetworkNode PeerId :=
  let (result, swarm) := node.swarm.write fun swarm => (none, swarm)
  (result, { node with swarm := swarm })

def handleEvent [DecidableEq PeerId] (node : NetworkNode PeerId) :
    SwarmEvent PeerId → NetworkNode PeerId
  | .discovered peers => { node with connectedPeers := node.connectedPeers ∪ peers.toFinset }
  | .connectionEstablished peer => { node with connectedPeers := insert peer node.connectedPeers }
  | .connectionClosed peer => { node with connectedPeers := node.connectedPeers.erase peer }
  | .other => node

/-- A fault of the serializer is returned before the swarm is locked. -/
def broadcast (node : NetworkNode PeerId) (message : NetworkMessage)
    (publishFault : Option String) : Option (Except String Unit) × NetworkNode PeerId :=
  match serde.serialize message with
  | .error text => (some (.error ("Serialization error: " ++ text)), node)
  | .ok _ =>
    let (result, swarm) := node.swarm.write fun swarm =>
      match publishFault with
      | some text => (some (.error ("Publish error: " ++ text)), swarm)
      | none => (some (.ok ()), swarm)
    (result, { node with swarm := swarm })

/-- The peer is not looked at. -/
def sendToPeer (node : NetworkNode PeerId) (_peer : PeerId) (message : NetworkMessage)
    (publishFault : Option String) : Option (Except String Unit) × NetworkNode PeerId :=
  node.broadcast serde message publishFault

def peerCount (node : NetworkNode PeerId) : Nat := node.connectedPeers.card

def registerValidator (node : NetworkNode PeerId) (address : Address) (peer : PeerId) :
    NetworkNode PeerId :=
  { node with validatorPeers := node.validatorPeers.insert address peer }

def getStats (node : NetworkNode PeerId) : NetworkStats where
  peerCount := node.peerCount
  validatorCount := node.validatorPeers.keys.card
  isConnected := decide (0 < node.peerCount)

/-- A call that does not return has no reply. Events are there for the event loop only. -/
def step [DecidableEq PeerId] (node : NetworkNode PeerId) :
    NodeCall PeerId → Option NodeReply × NetworkNode PeerId
  | .start listenFault subscribeFault =>
    let (result, after) := node.start listenFault subscribeFault
    (result.map .result, after)
  | .runEventLoop =>
    let (result, after) := node.runEventLoop
    (result.map fun _ => .done, after)
  | .event event =>
    if node.swarm.held then (some .done, node.handleEvent event) else (none, node)
  | .broadcast message publishFault =>
    let (result, after) := node.broadcast serde message publishFault
    (result.map .result, after)
  | .sendToPeer peer message publishFault =>
    let (result, after) := node.sendToPeer serde peer message publishFault
    (result.map .result, after)
  | .registerValidator address peer => (some .done, node.registerValidator address peer)
  | .peerCount => (some (.count node.peerCount), node)
  | .getStats => (some (.stats node.getStats), node)

/-! ## What one call does -/

def NeedsSwarm : NodeCall PeerId → Prop
  | .start _ _ | .runEventLoop => True
  | .broadcast message _ | .sendToPeer _ message _ => serde.accepts message = true
  | .event _ | .registerValidator _ _ | .peerCount | .getStats => False

theorem subscribe_subset (subscribeFault : String → Option String) (rest : List String)
    (topics : Finset String) :
    (subscribe subscribeFault rest topics).2 ⊆ topics ∪ rest.toFinset := by
  induction rest generalizing topics with
  | nil => exact Finset.subset_union_left
  | cons topic rest ih =>
    rw [subscribe]
    split
    · exact Finset.subset_union_left
    · intro found member
      have later := ih _ member
      simp only [List.toFinset_cons, Finset.mem_union, Finset.mem_insert] at later ⊢
      tauto

/-- What a broadcast comes to that does not wait for the swarm. -/
def published (message : NetworkMessage) (publishFault : Option String) : Except String Unit :=
  match serde.serialize message, publishFault with
  | .error text, _ => .error ("Serialization error: " ++ text)
  | .ok _, some text => .error ("Publish error: " ++ text)
  | .ok _, none => .ok ()

/-- A broadcast waits without end if it needs a swarm that is taken, and leaves the node alone. -/
theorem broadcast_eq (node : NetworkNode PeerId) (message : NetworkMessage)
    (publishFault : Option String) :
    node.broadcast serde message publishFault =
      (if node.swarm.held && serde.accepts message then none
        else some (published serde message publishFault), node) := by
  obtain ⟨localPeerId, ⟨held, topics⟩, connected, validators, address, shard⟩ := node
  unfold broadcast published Serde.accepts
  cases serde.serialize message with
  | error text => simp [Except.isOk, Except.toBool]
  | ok data => cases held <;> cases publishFault <;> rfl

section Free
variable {node : NetworkNode PeerId} (free : node.swarm.held = false)
include free

theorem start_of_free (listenFault : Option String) (subscribeFault : String → Option String) :
    ∃ result topics, topics ⊆ node.swarm.value ∪ ownTopics.toFinset ∧
      node.start listenFault subscribeFault =
        (some result, { node with swarm := ⟨false, topics⟩ }) := by
  cases listenFault with
  | some text =>
    refine ⟨.error ("Listen error: " ++ text), node.swarm.value, Finset.subset_union_left, ?_⟩
    simp only [start, Lock.write_free free rfl]
  | none =>
    refine ⟨(subscribe subscribeFault ownTopics node.swarm.value).1,
      (subscribe subscribeFault ownTopics node.swarm.value).2, subscribe_subset _ _ _, ?_⟩
    simp only [start, Lock.write, free, if_neg Bool.false_ne_true]

theorem runEventLoop_of_free :
    node.runEventLoop = (none, { node with swarm := ⟨true, node.swarm.value⟩ }) := by
  simp only [runEventLoop, Lock.write, free, if_neg Bool.false_ne_true]

end Free

variable [DecidableEq PeerId]

/-- Under the event loop a call for the swarm neither returns nor changes anything. -/
theorem step_of_held {node : NetworkNode PeerId} (held : node.swarm.held = true)
    {call : NodeCall PeerId} (needs : NeedsSwarm serde call) :
    step serde node call = (none, node) := by
  cases call with
  | start listenFault subscribeFault =>
    simp only [step, start, Lock.write_held held, Option.map_none]
  | runEventLoop => simp only [step, runEventLoop, Lock.write_held held, Option.map_none]
  | broadcast message publishFault | sendToPeer peer message publishFault =>
    have accepted : serde.accepts message = true := needs
    simp [step, sendToPeer, broadcast_eq, held, accepted]
  | event | registerValidator | peerCount | getStats => exact needs.elim

/-- Which topics a node listens to is settled before its event loop. -/
theorem step_swarm (node : NetworkNode PeerId) (call : NodeCall PeerId) :
    ((step serde node call).2.swarm.held = true ↔
        node.swarm.held = true ∨ call = .runEventLoop) ∧
      (step serde node call).2.swarm.value ⊆ node.swarm.value ∪ ownTopics.toFinset := by
  cases held : node.swarm.held with
  | true =>
    by_cases needs : NeedsSwarm serde call
    · rw [step_of_held serde held needs]
      exact ⟨by simp [held], Finset.subset_union_left⟩
    · cases call with
      | event event => cases event <;> simp [step, held, handleEvent]
      | registerValidator | peerCount | getStats => simp [step, held, registerValidator]
      | broadcast | sendToPeer => simp [step, sendToPeer, broadcast_eq, held]
      | start | runEventLoop => exact (needs trivial).elim
  | false =>
    cases call with
    | start listenFault subscribeFault =>
      obtain ⟨result, topics, subset, started⟩ := start_of_free held listenFault subscribeFault
      simp [step, started, subset]
    | runEventLoop => simp [step, runEventLoop_of_free held]
    | event | registerValidator | peerCount | getStats => simp [step, held, registerValidator]
    | broadcast | sendToPeer => simp [step, sendToPeer, broadcast_eq, held]

theorem step_isSome_iff (node : NetworkNode PeerId) (call : NodeCall PeerId) :
    (step serde node call).1.isSome ↔
      match call with
      | .start _ _ => node.swarm.held = false
      | .broadcast message _ | .sendToPeer _ message _ =>
        node.swarm.held = false ∨ serde.accepts message = false
      | .runEventLoop => False
      | .event _ => node.swarm.held = true
      | .registerValidator _ _ | .peerCount | .getStats => True := by
  cases held : node.swarm.held with
  | true =>
    by_cases needs : NeedsSwarm serde call
    · rw [step_of_held serde held needs]
      cases call with
      | broadcast message publishFault | sendToPeer peer message publishFault =>
        have accepted : serde.accepts message = true := needs
        simp [accepted]
      | start | runEventLoop => simp
      | event | registerValidator | peerCount | getStats => exact needs.elim
    · cases call with
      | broadcast message publishFault | sendToPeer peer message publishFault =>
        have refused : serde.accepts message = false := Bool.not_eq_true _ ▸ needs
        simp [step, sendToPeer, broadcast_eq, refused]
      | start | runEventLoop => exact (needs trivial).elim
      | event | registerValidator | peerCount | getStats => simp [step, held]
  | false =>
    cases call with
    | start listenFault subscribeFault =>
      obtain ⟨result, topics, subset, started⟩ := start_of_free held listenFault subscribeFault
      simp [step, started]
    | runEventLoop => simp [step, runEventLoop_of_free held]
    | event | registerValidator | peerCount | getStats => simp [step, held]
    | broadcast | sendToPeer => simp [step, sendToPeer, broadcast_eq, held]

/-! ## Runs of one node -/

section Runs
variable (localPeerId : PeerId) (myAddress : Address) (shardId : U16)

/-- The node after calls from any threads and events, in the order they take effect. -/
def after (calls : List (NodeCall PeerId)) : NetworkNode PeerId :=
  (Runs.run (step serde) (new localPeerId myAddress shardId) calls).2

theorem after_concat (calls : List (NodeCall PeerId)) (call : NodeCall PeerId) :
    after serde localPeerId myAddress shardId (calls ++ [call]) =
      (step serde (after serde localPeerId myAddress shardId calls) call).2 := by
  unfold after
  rw [Runs.run_concat]

theorem swarm_after (calls : List (NodeCall PeerId)) :
    ((after serde localPeerId myAddress shardId calls).swarm.held = true ↔ .runEventLoop ∈ calls) ∧
      (after serde localPeerId myAddress shardId calls).swarm.value ⊆ ownTopics.toFinset := by
  induction calls using List.reverseRecOn with
  | nil => simp [after, new, Lock.new]
  | append_singleton calls call ih =>
    obtain ⟨held, topics⟩ := step_swarm serde (after serde localPeerId myAddress shardId calls) call
    rw [after_concat, held, ih.1, List.mem_append, List.mem_singleton]
    refine ⟨or_congr Iff.rfl eq_comm, topics.trans ?_⟩
    exact Finset.union_subset ih.2 (Finset.Subset.refl _)

/-- From the first call of the event loop on, no call returns that needs the swarm, and before it
every one does. A message that the serializer refuses does not need it. -/
theorem calls_return_iff (calls : List (NodeCall PeerId)) (call : NodeCall PeerId) :
    (step serde (after serde localPeerId myAddress shardId calls) call).1.isSome ↔
      match call with
      | .start _ _ => .runEventLoop ∉ calls
      | .broadcast message _ | .sendToPeer _ message _ =>
        .runEventLoop ∉ calls ∨ serde.accepts message = false
      | .runEventLoop => False
      | .event _ => .runEventLoop ∈ calls
      | .registerValidator _ _ | .peerCount | .getStats => True := by
  have running := (swarm_after serde localPeerId myAddress shardId calls).1
  have waiting : (after serde localPeerId myAddress shardId calls).swarm.held = false ↔
      .runEventLoop ∉ calls := by
    rw [← running, Bool.not_eq_true]
  rw [step_isSome_iff]
  cases call with
  | start => exact waiting
  | broadcast | sendToPeer => exact or_congr waiting Iff.rfl
  | event => exact running
  | runEventLoop | registerValidator | peerCount | getStats => exact Iff.rfl

/-! ### What the counts count -/

def Joins (peer : PeerId) : NodeCall PeerId → Prop
  | .event (.discovered peers) => peer ∈ peers
  | .event (.connectionEstablished other) => peer = other
  | _ => False

def Leaves (peer : PeerId) : NodeCall PeerId → Prop
  | .event (.connectionClosed other) => peer = other
  | _ => False

/-- The last event about the peer that the loop has seen has connected it. -/
def Connected (calls : List (NodeCall PeerId)) (peer : PeerId) : Prop :=
  Runs.Since (step serde) (fun node call => node.swarm.held = true ∧ Joins peer call)
    (fun _ call => ¬ Leaves peer call) (new localPeerId myAddress shardId) calls

theorem mem_connectedPeers_step {node : NetworkNode PeerId}
    (quiet : node.swarm.held = false → node.connectedPeers = ∅) (call : NodeCall PeerId)
    (peer : PeerId) :
    peer ∈ (step serde node call).2.connectedPeers ↔
      node.swarm.held = true ∧ Joins peer call ∨
        peer ∈ node.connectedPeers ∧ ¬ Leaves peer call := by
  cases held : node.swarm.held with
  | false =>
    have none_before : peer ∉ node.connectedPeers := by
      rw [quiet held]
      exact Finset.notMem_empty peer
    have same : (step serde node call).2.connectedPeers = node.connectedPeers := by
      cases call with
      | start listenFault subscribeFault =>
        obtain ⟨result, topics, -, started⟩ := start_of_free held listenFault subscribeFault
        simp [step, started]
      | runEventLoop => simp [step, runEventLoop_of_free held]
      | event | registerValidator | peerCount | getStats => simp [step, held, registerValidator]
      | broadcast | sendToPeer => simp [step, sendToPeer, broadcast_eq]
    simp [same, none_before]
  | true =>
    by_cases needs : NeedsSwarm serde call
    · rw [step_of_held serde held needs]
      cases call <;> first | exact needs.elim | simp [Joins, Leaves]
    · cases call with
      | event event =>
        cases event <;> simp [step, held, handleEvent, Joins, Leaves, or_comm, and_comm]
      | registerValidator | peerCount | getStats => simp [step, registerValidator, Joins, Leaves]
      | broadcast | sendToPeer => simp [step, sendToPeer, broadcast_eq, Joins, Leaves]
      | start | runEventLoop => exact (needs trivial).elim

theorem connectedPeers_quiet (calls : List (NodeCall PeerId))
    (quiet : (after serde localPeerId myAddress shardId calls).swarm.held = false) :
    (after serde localPeerId myAddress shardId calls).connectedPeers = ∅ := by
  induction calls using List.reverseRecOn with
  | nil => rfl
  | append_singleton calls call ih =>
    have before : (after serde localPeerId myAddress shardId calls).swarm.held = false := by
      rw [after_concat, ← Bool.not_eq_true, (step_swarm serde _ call).1] at quiet
      exact Bool.not_eq_true _ ▸ fun held => quiet (.inl held)
    ext peer
    rw [after_concat, mem_connectedPeers_step serde ih, ih before]
    simp [before]

theorem mem_connectedPeers_iff (calls : List (NodeCall PeerId)) (peer : PeerId) :
    peer ∈ (after serde localPeerId myAddress shardId calls).connectedPeers ↔
      Connected serde localPeerId myAddress shardId calls peer := by
  induction calls using List.reverseRecOn with
  | nil => simp [after, new, Connected, Runs.Since]
  | append_singleton calls call ih =>
    rw [after_concat, mem_connectedPeers_step serde (connectedPeers_quiet serde _ _ _ calls), ih]
    unfold Connected
    rw [Runs.since_concat]
    rfl

theorem mem_validatorPeers_iff (calls : List (NodeCall PeerId)) (address : Address) :
    address ∈ (after serde localPeerId myAddress shardId calls).validatorPeers ↔
      ∃ peer, .registerValidator address peer ∈ calls := by
  induction calls using List.reverseRecOn with
  | nil => exact iff_of_false Finmap.notMem_empty (by simp)
  | append_singleton calls call ih =>
    have step_keys : ∀ node : NetworkNode PeerId,
        address ∈ (step serde node call).2.validatorPeers ↔
          address ∈ node.validatorPeers ∨ ∃ peer, call = .registerValidator address peer := by
      intro node
      cases call with
      | registerValidator other peer =>
        simp [step, registerValidator, Finmap.mem_insert, or_comm, eq_comm]
      | event event =>
        cases held : node.swarm.held <;> cases event <;> simp [step, held, handleEvent]
      | start | runEventLoop | broadcast | sendToPeer | peerCount | getStats =>
        simp [step, start, runEventLoop, sendToPeer, broadcast_eq]
    rw [after_concat, step_keys, ih, ← exists_or]
    simp [eq_comm]

/-- The counts that are reported after any run. -/
theorem stats_exact (calls : List (NodeCall PeerId)) :
    ∃ (peers : Finset PeerId) (validators : Finset Address),
      (∀ peer, peer ∈ peers ↔ Connected serde localPeerId myAddress shardId calls peer) ∧
      (∀ address, address ∈ validators ↔ ∃ peer, .registerValidator address peer ∈ calls) ∧
      step serde (after serde localPeerId myAddress shardId calls) .getStats =
        (some (.stats ⟨peers.card, validators.card, decide (0 < peers.card)⟩),
          after serde localPeerId myAddress shardId calls) := by
  have registered (address : Address) :=
    mem_validatorPeers_iff serde localPeerId myAddress shardId calls address
  exact ⟨_, _, mem_connectedPeers_iff serde localPeerId myAddress shardId calls,
    fun address => Finmap.mem_keys.trans (registered address), rfl⟩

end Runs

end NetworkNode

end Node

end ProtonChain.Network
