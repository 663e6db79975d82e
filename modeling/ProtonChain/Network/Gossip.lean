import ProtonChain.Network.NetworkNode

/-! Any number of nodes and what gossip brings from one to another.

Gossip may delay, repeat, reorder and drop, but a node is handed only what a node has published, on
a topic that it is subscribed to itself, and only by its event loop. A node hears nothing before
its loop and says nothing after it has begun, so no message that is handled is ever answered. Of the
serializer it is known that it reads back what it has written.
-/

set_option autoImplicit false

namespace ProtonChain.Network

section Gossip
variable {Id PeerId : Type}

variable (Id PeerId) in
structure Gossip where
  nodes : Id → NetworkNode PeerId
  published : List (String × Bytes)

/-- The message that a call is to send. -/
def NodeCall.message : NodeCall PeerId → Option NetworkMessage
  | .broadcast message _ | .sendToPeer _ message _ => some message
  | _ => none

variable (Id PeerId) in
/-- A thread of a node makes a call, or gossip offers published data to a node. -/
inductive GossipAction where
  | call (id : Id) (call : NodeCall PeerId)
  | deliver (id : Id) (topic : String) (data : Bytes)

/-- What a call replies, or what the event loop hands to `handle_message`, which only logs it. -/
inductive GossipOutcome where
  | replied (reply : Option NodeReply)
  | handled (message : Option NetworkMessage)

namespace Gossip

section Messages
variable (serde : Serde NetworkMessage)

/-- The network has taken the data of a call that sends a message and returns without fault. -/
def publishes (call : NodeCall PeerId) (reply : Option NodeReply) : List (String × Bytes) :=
  match call.message, reply with
  | some message, some (.result (.ok ())) =>
    match serde.serialize message with
    | .ok data => [(message.topic, data)]
    | .error _ => []
  | _, _ => []

/-- The event loop of the node takes data of this topic from the swarm. -/
def Hears (gossip : Gossip Id PeerId) (id : Id) (topic : String) (data : Bytes) : Prop :=
  (gossip.nodes id).swarm.held = true ∧ topic ∈ (gossip.nodes id).swarm.value ∧
    (topic, data) ∈ gossip.published

instance (gossip : Gossip Id PeerId) (id : Id) (topic : String) (data : Bytes) :
    Decidable (gossip.Hears id topic data) :=
  inferInstanceAs (Decidable (_ ∧ _ ∧ _))

theorem mem_publishes {call : NodeCall PeerId} {reply : Option NodeReply} {topic : String}
    {data : Bytes} (published : (topic, data) ∈ publishes serde call reply) :
    ∃ message, call.message = some message ∧ reply = some (.result (.ok ())) ∧
      topic = message.topic ∧ serde.serialize message = .ok data := by
  unfold publishes at published
  split at published
  next message same =>
    cases written : serde.serialize message with
    | ok bytes =>
      rw [written] at published
      obtain ⟨rfl, rfl⟩ := Prod.mk.inj (List.mem_singleton.mp published)
      exact ⟨message, same, rfl, rfl, written⟩
    | error text =>
      rw [written] at published
      exact absurd published List.not_mem_nil
  next => exact absurd published List.not_mem_nil

theorem needsSwarm_of_message {call : NodeCall PeerId} {message : NetworkMessage}
    (sends : call.message = some message) (accepted : serde.accepts message = true) :
    NetworkNode.NeedsSwarm serde call := by
  cases call with
  | broadcast | sendToPeer =>
    obtain rfl := Option.some.inj sends
    exact accepted
  | start | runEventLoop | event | registerValidator | peerCount | getStats => cases sends

theorem accepts_of_serialize {message : NetworkMessage} {data : Bytes}
    (written : serde.serialize message = .ok data) : serde.accepts message = true := by
  rw [Serde.accepts, written]
  rfl

variable [DecidableEq Id]

def callOf (id : Id) : GossipAction Id PeerId → Option (NodeCall PeerId)
  | .call other call => if other = id then some call else none
  | .deliver _ _ _ => none

theorem mem_callsOf (id : Id) (actions : List (GossipAction Id PeerId)) (call : NodeCall PeerId) :
    call ∈ actions.filterMap (callOf id) ↔ .call id call ∈ actions := by
  rw [List.mem_filterMap]
  constructor
  · rintro ⟨action, member, same⟩
    cases action with
    | call other made =>
      rw [callOf] at same
      split at same
      next here => cases same; rwa [← here]
      next => cases same
    | deliver => cases same
  · intro member
    exact ⟨_, member, if_pos rfl⟩

variable [DecidableEq PeerId]

def step (gossip : Gossip Id PeerId) : GossipAction Id PeerId → GossipOutcome × Gossip Id PeerId
  | .call id call =>
    let (reply, node) := NetworkNode.step serde (gossip.nodes id) call
    (.replied reply,
      { nodes := Function.update gossip.nodes id node
        published := gossip.published ++ publishes serde call reply })
  | .deliver id topic data =>
    if gossip.Hears id topic data then (.handled (serde.deserialize data), gossip)
    else (.handled none, gossip)

section Runs
variable (peerIds : Id → PeerId) (addresses : Id → Address) (shardIds : Id → U16)

def new : Gossip Id PeerId where
  nodes id := NetworkNode.new (peerIds id) (addresses id) (shardIds id)
  published := []

/-- The network after actions of its nodes and deliveries, in any order. -/
def after (actions : List (GossipAction Id PeerId)) : Gossip Id PeerId :=
  (Runs.run (step serde) (new peerIds addresses shardIds) actions).2

theorem after_concat (actions : List (GossipAction Id PeerId)) (action : GossipAction Id PeerId) :
    after serde peerIds addresses shardIds (actions ++ [action]) =
      (step serde (after serde peerIds addresses shardIds actions) action).2 := by
  unfold after
  rw [Runs.run_concat]

/-! ## One node in the network -/

theorem nodes_after (actions : List (GossipAction Id PeerId)) (id : Id) :
    (after serde peerIds addresses shardIds actions).nodes id =
      NetworkNode.after serde (peerIds id) (addresses id) (shardIds id)
        (actions.filterMap (callOf id)) := by
  induction actions using List.reverseRecOn with
  | nil => rfl
  | append_singleton actions action ih =>
    rw [after_concat, List.filterMap_append]
    cases action with
    | call other call =>
      by_cases here : other = id
      · subst here
        have one : [GossipAction.call other call].filterMap (callOf other) = [call] := by
          simp [callOf]
        rw [one, NetworkNode.after_concat, ← ih]
        exact Function.update_self ..
      · have none : [GossipAction.call other call].filterMap (callOf id) = [] := by
          simp [callOf, here]
        rw [none, List.append_nil, ← ih]
        exact Function.update_of_ne (Ne.symm here) ..
    | deliver other topic data =>
      have same : (step serde (after serde peerIds addresses shardIds actions)
          (.deliver other topic data)).2 = after serde peerIds addresses shardIds actions := by
        rw [step]
        split <;> rfl
      rw [same, ih]
      exact congrArg _ (List.append_nil _).symm

theorem held_after_iff (actions : List (GossipAction Id PeerId)) (id : Id) :
    ((after serde peerIds addresses shardIds actions).nodes id).swarm.held = true ↔
      .call id .runEventLoop ∈ actions := by
  rw [nodes_after, (NetworkNode.swarm_after ..).1, mem_callsOf]

/-! ## What has been published -/

/-- The action publishes this data on this topic. -/
def Publishes (topic : String) (data : Bytes) (gossip : Gossip Id PeerId)
    (action : GossipAction Id PeerId) : Prop :=
  ∃ id call, action = .call id call ∧
    (topic, data) ∈ publishes serde call (NetworkNode.step serde (gossip.nodes id) call).1

theorem mem_published_iff (actions : List (GossipAction Id PeerId)) (topic : String)
    (data : Bytes) :
    (topic, data) ∈ (after serde peerIds addresses shardIds actions).published ↔
      Runs.Occurs (step serde) (Publishes serde topic data) (new peerIds addresses shardIds)
        actions := by
  induction actions using List.reverseRecOn with
  | nil => simp [after, new, Runs.Occurs]
  | append_singleton actions action ih =>
    rw [after_concat, Runs.occurs_concat, ← ih]
    change _ ↔ _ ∨
      Publishes serde topic data (after serde peerIds addresses shardIds actions) action
    cases action with
    | call id call => simp [step, Publishes]
    | deliver id topic' data' =>
      rw [step]
      split <;> simp [Publishes]

/-! ## What is handled -/

/-- A handled message was sent before by a node that had not begun to listen, on a topic that the
nodes subscribe to; whoever handles it sends nothing any more, but for what the serializer refuses,
which comes back as an error. -/
theorem handled_messages (roundTrips : serde.RoundTrips)
    (earlier between : List (GossipAction Id PeerId)) (id : Id) (topic : String) (data : Bytes)
    (message : NetworkMessage)
    (handled : (step serde (after serde peerIds addresses shardIds earlier)
      (.deliver id topic data)).1 = .handled (some message)) :
    topic = message.topic ∧ message.topic ≠ "proton-general" ∧
    (∃ before sender call rest, earlier = before ++ .call sender call :: rest ∧
      call.message = some message ∧ .call sender .runEventLoop ∉ before) ∧
    ∀ (call : NodeCall PeerId) (reply : NetworkMessage), call.message = some reply →
      let now := after serde peerIds addresses shardIds
        (earlier ++ .deliver id topic data :: between)
      (step serde now (.call id call)).2.published = now.published ∧
        (serde.accepts reply = true → (step serde now (.call id call)).1 = .replied none) := by
  rw [step] at handled
  split at handled
  next hears =>
    obtain ⟨running, subscribed, published⟩ := hears
    obtain ⟨before, action, rest, split, sender, call, rfl, sent⟩ :=
      (mem_published_iff serde peerIds addresses shardIds earlier topic data).mp published
    obtain ⟨said, carries, returned, rfl, written⟩ := mem_publishes serde sent
    rw [roundTrips said data written] at handled
    obtain rfl := Option.some.inj (GossipOutcome.handled.inj handled)
    refine ⟨rfl, ?_, ⟨before, sender, call, rest, split, carries, ?_⟩, ?_⟩
    · -- a node subscribes to four topics, and this is none of them
      intro general
      have own : said.topic ∈ NetworkNode.ownTopics.toFinset := by
        rw [nodes_after] at subscribed
        exact (NetworkNode.swarm_after ..).2 subscribed
      rw [general] at own
      exact absurd own (by decide)
    · -- under its event loop the sender would not have returned
      intro listening
      have held := (held_after_iff serde peerIds addresses shardIds before sender).mpr listening
      have stuck := NetworkNode.step_of_held serde held
        (needsSwarm_of_message serde carries (accepts_of_serialize serde written))
      change (NetworkNode.step serde
        ((after serde peerIds addresses shardIds before).nodes sender) call).1 = _ at returned
      rw [stuck] at returned
      cases returned
    · intro call reply sends now
      have listening := (held_after_iff serde peerIds addresses shardIds earlier id).mp running
      have held : (now.nodes id).swarm.held = true :=
        (held_after_iff serde peerIds addresses shardIds _ id).mpr
          (List.mem_append_left _ listening)
      cases accepted : serde.accepts reply with
      | true =>
        rw [step, NetworkNode.step_of_held serde held
          (needsSwarm_of_message serde sends accepted)]
        exact ⟨by simp [publishes], fun _ => rfl⟩
      | false =>
        refine ⟨?_, fun both => absurd both Bool.false_ne_true⟩
        have nothing :
            publishes serde call (NetworkNode.step serde (now.nodes id) call).1 = [] := by
          refine List.eq_nil_iff_forall_not_mem.mpr fun entry member => ?_
          obtain ⟨other, same, -, -, written⟩ := mem_publishes serde member
          rw [sends] at same
          obtain rfl := Option.some.inj same
          rw [accepts_of_serialize serde written] at accepted
          cases accepted
        exact (congrArg (now.published ++ ·) nothing).trans (List.append_nil _)
  next => cases GossipOutcome.handled.inj handled

end Runs

end Messages

namespace Sample

def address (id : Bool) : Address := ProtonChain.Sample.address (if id then 1 else 0)

def view : NetworkMessage := .newView 1 0 (address false)

def viewCodec : Codec (U32 × U64 × U64 × Address) :=
  .pair (.word 4) (.pair (.word 8) (.pair (.word 8) Bincode.addressCodec))

/-- The serializer for the first variant; it refuses the others. -/
def serde : Serde NetworkMessage where
  serialize
    | .newView height round validator => .ok (viewCodec.encode (0, height, round, validator))
    | _ => .error "SizeLimit"
  deserialize data :=
    match viewCodec.decode data with
    | some ((variant, height, round, validator), _) =>
      if variant = 0 then some (.newView height round validator) else none
    | none => none

theorem serde_roundTrips : serde.RoundTrips := by
  intro message data written
  cases message with
  | newView height round validator =>
    have back := viewCodec.decode_encode (0, height, round, validator) [] rfl
    rw [List.append_nil] at back
    obtain rfl := Except.ok.inj written
    simp only [serde, back, if_pos]
  | _ => cases written

/-- One node listens, and then the other one speaks. -/
def actions : List (GossipAction Bool Nat) :=
  [.call true (.start none fun _ => none), .call true .runEventLoop,
    .call false (.broadcast view none)]

end Sample

theorem handled_messages_sample :
    Sample.view.topic ≠ "proton-general" ∧
      (step Sample.serde (after Sample.serde Bool.toNat Sample.address (fun _ => 0)
          (Sample.actions ++ [.deliver true "proton-consensus"
            (Sample.viewCodec.encode (0, 1, 0, Sample.address false))]))
        (.call true (.broadcast Sample.view none))).1 = .replied none :=
  have handled := handled_messages Sample.serde Bool.toNat Sample.address (fun _ => 0)
    Sample.serde_roundTrips Sample.actions [] true "proton-consensus"
    (Sample.viewCodec.encode (0, 1, 0, Sample.address false)) Sample.view rfl
  ⟨handled.2.1, (handled.2.2.2 (.broadcast Sample.view none) Sample.view rfl).2 rfl⟩

end Gossip

end Gossip

end ProtonChain.Network
