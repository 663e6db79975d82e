import ProtonChain.Consensus.Finality
import ProtonChain.Library.History
import ProtonChain.Network.TxBroadcaster

/-! Requests for missing blocks.

A height is noted as requested before the request is sent, and the note is of the height
alone: whether the network took the request, and which shard it was for, is not kept.
-/

set_option autoImplicit false

namespace ProtonChain.Network

structure BlockSync where
  knownBlocks : HashMap U64 Hash
  pendingRequests : Finset U64
  deriving DecidableEq

namespace BlockSync

def new : BlockSync := ⟨∅, ∅⟩

structure Answer where
  result : Except String Unit
  sent : List NetworkMessage

/-- `broadcast` is what the network answers where it is asked. -/
def requestBlock (sync : BlockSync) (height : U64) (shardId : U16)
    (broadcast : Except String Unit) : Answer × BlockSync :=
  if (sync.knownBlocks.lookup height).isSome then (⟨.ok (), []⟩, sync)
  else if height ∈ sync.pendingRequests then (⟨.ok (), []⟩, sync)
  else
    (⟨broadcast, [.blockRequest height shardId]⟩,
      { sync with pendingRequests := insert height sync.pendingRequests })

def receiveBlock (crates : Crates) (sync : BlockSync) (block : Block) : BlockSync where
  knownBlocks := sync.knownBlocks.insert block.header.height (block.header.hash crates)
  pendingRequests := sync.pendingRequests.erase block.header.height

def Fresh (sync : BlockSync) (height : U64) : Prop :=
  sync.knownBlocks.lookup height = none ∧ height ∉ sync.pendingRequests

section Requests
variable {sync : BlockSync} {height : U64} (shardId : U16) (broadcast : Except String Unit)

theorem requestBlock_fresh (fresh : sync.Fresh height) :
    sync.requestBlock height shardId broadcast =
      (⟨broadcast, [.blockRequest height shardId]⟩,
        { sync with pendingRequests := insert height sync.pendingRequests }) := by
  simp [requestBlock, fresh.1, fresh.2]

theorem requestBlock_noted (noted : ¬ sync.Fresh height) :
    sync.requestBlock height shardId broadcast = (⟨.ok (), []⟩, sync) := by
  unfold requestBlock
  cases known : sync.knownBlocks.lookup height with
  | some hash => simp
  | none =>
    have pending : height ∈ sync.pendingRequests := by
      by_contra missing
      exact noted ⟨known, missing⟩
    simp [pending]

end Requests

/-! ## Runs -/

inductive Call where
  | requestBlock (height : U64) (shardId : U16) (broadcast : Except String Unit)
  | receiveBlock (block : Block)

def Call.height : Call → U64
  | requestBlock height _ _ => height
  | receiveBlock block => block.header.height

section Runs
variable (crates : Crates)

def step (sync : BlockSync) : Call → Answer × BlockSync
  | .requestBlock height shardId broadcast => sync.requestBlock height shardId broadcast
  | .receiveBlock block => (⟨.ok (), []⟩, sync.receiveBlock crates block)

def after (calls : List Call) : BlockSync := (Runs.run (step crates) new calls).2

def Delivers (height : U64) (shardId : U16) (call : Call) : Prop :=
  ∃ block, call = .receiveBlock block ∧ block.header.height = height ∧
    block.header.shardId = shardId

def Requests (height : U64) (shardId : U16) (sync : BlockSync) (call : Call) : Prop :=
  .blockRequest height shardId ∈ (step crates sync call).1.sent ∧
    (step crates sync call).1.result = .ok ()

/-- The block has come in, or a request for it is out and not answered. -/
def Accounted (calls : List Call) (height : U64) (shardId : U16) : Prop :=
  (∃ call ∈ calls, Delivers height shardId call) ∨
    Runs.Since (step crates) (Requests crates height shardId)
      (fun _ call => ¬ Delivers height shardId call) new calls

/-- The answers of `request_block` can be relied on. -/
structure Synchronizes (calls : List Call) : Prop where
  accounted : ∀ earlier height shardId broadcast later,
    calls = earlier ++ .requestBlock height shardId broadcast :: later →
      (step crates (after crates earlier) (.requestBlock height shardId broadcast)).1.result =
          .ok () →
        Accounted crates (earlier ++ [.requestBlock height shardId broadcast]) height shardId
  retries : ∀ earlier height shardId broadcast later fault,
    calls = earlier ++ .requestBlock height shardId broadcast :: later →
      (step crates (after crates earlier) (.requestBlock height shardId broadcast)).1.result =
          .error fault →
        after crates (earlier ++ [.requestBlock height shardId broadcast]) =
            after crates earlier ∧
          ∀ again, (step crates
            (after crates (earlier ++ [.requestBlock height shardId broadcast]))
              (.requestBlock height shardId again)).1.sent = [.blockRequest height shardId]

/-- The first call about a height decides: a request for it has to be taken by the network,
and later ones have to be for the same shard unless their block is there. -/
def Served (earlier : List Call) : Call → Prop
  | .receiveBlock _ => True
  | .requestBlock height shardId broadcast =>
    match earlier.find? fun call => call.height = height with
    | none => broadcast = .ok ()
    | some first => first = .requestBlock height shardId (.ok ()) ∨
        ∃ call ∈ earlier, Delivers height shardId call

/-! ## What the notes say about a run -/

theorem after_concat (calls : List Call) (call : Call) :
    after crates (calls ++ [call]) = (step crates (after crates calls) call).2 := by
  unfold after
  rw [Runs.run_concat]

theorem find?_concat (calls : List Call) (call : Call) (height : U64) :
    (calls ++ [call]).find? (fun call => call.height = height) =
      (calls.find? fun call => call.height = height).or
        (if call.height = height then some call else none) := by
  rw [List.find?_append]
  by_cases about : call.height = height <;> simp [about]

theorem fresh_step_iff (sync : BlockSync) (call : Call) (height : U64) :
    (step crates sync call).2.Fresh height ↔ sync.Fresh height ∧ call.height ≠ height := by
  cases call with
  | requestBlock other shardId broadcast =>
    by_cases fresh : sync.Fresh other
    · simp only [step, requestBlock_fresh shardId broadcast fresh, Fresh, Finset.mem_insert,
        Call.height, not_or]
      tauto
    · simp only [step, requestBlock_noted shardId broadcast fresh, Call.height]
      constructor
      · intro still
        refine ⟨still, ?_⟩
        rintro rfl
        exact fresh still
      · exact And.left
  | receiveBlock block =>
    simp only [step, receiveBlock, Fresh, Call.height, FiniteMap.lookup_insert]
    by_cases same : height = block.header.height
    · simp [same]
    · simp [same, Ne.symm same]

theorem fresh_after_iff (calls : List Call) (height : U64) :
    (after crates calls).Fresh height ↔
      calls.find? (fun call => call.height = height) = none := by
  induction calls using List.reverseRecOn with
  | nil => simp [after, new, Fresh]
  | append_singleton calls call ih =>
    rw [after_concat, fresh_step_iff, ih, find?_concat, Option.or_eq_none_iff]
    simp

theorem requests_iff (sync : BlockSync) (height : U64) (shardId : U16) (call : Call) :
    Requests crates height shardId sync call ↔
      call = .requestBlock height shardId (.ok ()) ∧ sync.Fresh height := by
  unfold Requests
  cases call with
  | requestBlock other otherShard broadcast =>
    by_cases fresh : sync.Fresh other
    · simp only [step, requestBlock_fresh otherShard broadcast fresh, List.mem_singleton,
        NetworkMessage.blockRequest.injEq, Call.requestBlock.injEq]
      constructor
      · rintro ⟨⟨rfl, rfl⟩, rfl⟩
        exact ⟨⟨rfl, rfl, rfl⟩, fresh⟩
      · rintro ⟨⟨rfl, rfl, rfl⟩, -⟩
        exact ⟨⟨rfl, rfl⟩, rfl⟩
    · simp only [step, requestBlock_noted otherShard broadcast fresh, Call.requestBlock.injEq]
      constructor
      · rintro ⟨member, -⟩
        exact absurd member List.not_mem_nil
      · rintro ⟨⟨rfl, -, -⟩, still⟩
        exact absurd still fresh
  | receiveBlock block => simp [step]

theorem occurs_requests_iff (calls : List Call) (height : U64) (shardId : U16) :
    Runs.Occurs (step crates) (Requests crates height shardId) new calls ↔
      calls.find? (fun call => call.height = height) =
        some (.requestBlock height shardId (.ok ())) := by
  induction calls using List.reverseRecOn with
  | nil => simp [Runs.Occurs]
  | append_singleton calls call ih =>
    rw [Runs.occurs_concat, ih, requests_iff, find?_concat]
    change _ ∨ _ ∧ (after crates calls).Fresh height ↔ _
    rw [fresh_after_iff]
    cases first : calls.find? fun call => call.height = height with
    | some other => simp
    | none =>
      simp only [reduceCtorEq, false_or, and_true, Option.none_or, Option.ite_none_right_eq_some,
        Option.some.injEq]
      constructor
      · rintro rfl
        exact ⟨rfl, rfl⟩
      · exact And.right

theorem accounted_iff (calls : List Call) (height : U64) (shardId : U16) :
    Accounted crates calls height shardId ↔
      (∃ call ∈ calls, Delivers height shardId call) ∨
        calls.find? (fun call => call.height = height) =
          some (.requestBlock height shardId (.ok ())) := by
  rw [← occurs_requests_iff crates]
  unfold Accounted
  constructor
  · rintro (delivered | ⟨earlier, call, later, split, requested, -⟩)
    · exact .inl delivered
    · exact .inr ⟨earlier, call, later, split, requested⟩
  · rintro (delivered | ⟨earlier, call, later, split, requested⟩)
    · exact .inl delivered
    · -- an answer to the request is a delivery
      by_cases answered : ∃ call ∈ later, Delivers height shardId call
      · obtain ⟨answer, member, delivers⟩ := answered
        exact .inl ⟨answer, by simp [split, member], delivers⟩
      · refine .inr ⟨earlier, call, later, split, requested, ?_⟩
        rw [Runs.meets_const]
        intro answer member delivers
        exact answered ⟨answer, member, delivers⟩

/-! ## Requests that can be relied on -/

section Request
variable (earlier : List Call) (height : U64) (shardId : U16) (broadcast : Except String Unit)

/-- A request that fails has noted its height, so it does not leave the state as it was. -/
theorem not_restored (fresh : (after crates earlier).Fresh height) :
    after crates (earlier ++ [.requestBlock height shardId broadcast]) ≠ after crates earlier := by
  intro same
  have still := (fresh_after_iff crates _ height).mp (same ▸ fresh)
  rw [find?_concat, Option.or_eq_none_iff] at still
  simp [Call.height] at still

theorem served_iff :
    Served earlier (.requestBlock height shardId broadcast) ↔
      ((step crates (after crates earlier) (.requestBlock height shardId broadcast)).1.result =
          .ok () →
        Accounted crates (earlier ++ [.requestBlock height shardId broadcast]) height shardId) ∧
      ∀ fault, (step crates (after crates earlier)
          (.requestBlock height shardId broadcast)).1.result ≠ .error fault ∨
        after crates (earlier ++ [.requestBlock height shardId broadcast]) =
          after crates earlier := by
  rw [accounted_iff, find?_concat]
  simp only [Served, step]
  cases first : earlier.find? fun call => call.height = height with
  | none =>
    have fresh := (fresh_after_iff crates earlier height).mpr first
    have changed := not_restored crates earlier height shardId broadcast fresh
    simp only [requestBlock_fresh shardId broadcast fresh, Call.height, if_pos, Option.none_or,
      changed, or_false, Option.some.injEq, Call.requestBlock.injEq, true_and]
    constructor
    · rintro rfl
      refine ⟨fun _ => .inr rfl, ?_⟩
      intro fault same
      cases same
    · rintro ⟨-, noFault⟩
      cases broadcast with
      | ok done => rfl
      | error fault => exact absurd rfl (noFault fault)
  | some call =>
    have noted : ¬ (after crates earlier).Fresh height := by
      rw [fresh_after_iff, first]
      simp
    simp only [requestBlock_noted shardId broadcast noted, Option.some_or, Option.some.injEq,
      forall_const]
    have new : ¬ Delivers height shardId (.requestBlock height shardId broadcast) := by
      rintro ⟨block, same, -⟩
      cases same
    simp [List.mem_append, or_and_right, exists_or, new, or_comm]

end Request

/-- The synchronizer can be relied on exactly in the runs in which every request is served. -/
theorem synchronizes_iff (calls : List Call) :
    Synchronizes crates calls ↔
      ∀ earlier call later, calls = earlier ++ call :: later → Served earlier call := by
  constructor
  · intro synchronizes earlier call later split
    cases call with
    | receiveBlock block => trivial
    | requestBlock height shardId broadcast =>
      rw [served_iff crates]
      refine ⟨synchronizes.accounted earlier height shardId broadcast later split, ?_⟩
      intro fault
      by_cases failed : (step crates (after crates earlier)
          (.requestBlock height shardId broadcast)).1.result = .error fault
      · exact .inr (synchronizes.retries _ _ _ _ _ fault split failed).1
      · exact .inl failed
  · intro served
    constructor
    · intro earlier height shardId broadcast later split
      exact ((served_iff crates _ _ _ _).mp (served _ _ _ split)).1
    · intro earlier height shardId broadcast later fault split failed
      rcases ((served_iff crates _ _ _ _).mp (served _ _ _ split)).2 fault with held | same
      · exact absurd failed held
      · exfalso
        by_cases fresh : (after crates earlier).Fresh height
        · exact not_restored crates earlier height shardId broadcast fresh same
        · simp [step, requestBlock_noted shardId broadcast fresh] at failed

end Runs

/-- A request that the network refuses is noted all the same, and a request for another shard
of a height that was asked for is not sent. -/
theorem suppressed_request_is_lost :
    ¬ Synchronizes Consensus.Sample.crates
        [.requestBlock 5 0 (.error "Publish error"), .requestBlock 5 0 (.ok ())] ∧
      ¬ Synchronizes Consensus.Sample.crates
        [.requestBlock 5 0 (.ok ()), .requestBlock 5 1 (.ok ())] := by
  constructor
  · intro synchronizes
    have restored := synchronizes.retries [] 5 0 (.error "Publish error")
      [.requestBlock 5 0 (.ok ())] "Publish error" rfl rfl
    exact not_restored Consensus.Sample.crates [] 5 0 _ ⟨rfl, by decide⟩ restored.1
  · intro synchronizes
    have accounted := synchronizes.accounted [.requestBlock 5 0 (.ok ())] 5 1 (.ok ()) [] rfl rfl
    rw [accounted_iff] at accounted
    simp [Delivers, Call.height] at accounted

end BlockSync

end ProtonChain.Network
