import ProtonChain.Consensus.PoolIndexes
import ProtonChain.Library.Codec
import ProtonChain.Multichain.Ledgers

/-! Which shard a transaction is put into the mempool of.

A shard id that exists and is not zero is taken as it is; any other leaves the choice to
two bytes of a hash of the sender. Both stay within the shards that were initialized, and
routing never removes one. The hash of an address is a parameter: the sources call it
and do not define it.
-/

set_option autoImplicit false

namespace ProtonChain.Multichain

open ProtonChain.Consensus ProtonChain.Vm

namespace ShardManager

/-- The remainder by a count of zero panics. -/
def routeShard (addressHash : Address → Hash) (shardCount txShardId : U16) (sender : Address) :
    Option U16 :=
  if 0 < txShardId ∧ txShardId < shardCount then some txShardId
  else
    let addrHash := (addressHash sender).asBytes
    let digits : U16 := BitVec.ofNat 16 (Codec.ofBytes [addrHash.get 0, addrHash.get 1])
    if shardCount = 0 then none else some (digits % shardCount)

/-- Without an answer where the choice of the shard panics. -/
def routeTransaction (crates : Crates) (addressHash : Address → Hash) (manager : ShardManager)
    (tx : Transaction) : Option (Except String U16) × ShardManager :=
  match routeShard addressHash manager.config.shardCount tx.shardId tx.sender with
  | none => (none, manager)
  | some shardId =>
    -- the mempool changes in place, inside the shard; a refusal leaves it as it was
    match manager.shards.lookup shardId with
    | none => (some (.error "Shard not found"), manager)
    | some shard =>
      let consensus := shard.config.consensus
      let (answer, mempool) := consensus.mempool.addTransaction crates tx
      let after := { manager with
        shards := manager.shards.insert shardId
          { shard with
            config := { shard.config with consensus := { consensus with mempool := mempool } } } }
      match answer with
      | .ok () => (some (.ok shardId), after)
      | .error text => (some (.error text), after)

def mempool (manager : ShardManager) (shardId : U16) : Option Mempool :=
  (manager.shards.lookup shardId).map fun shard => shard.config.consensus.mempool

end ShardManager

open ShardManager

/-! ## The choice -/

theorem routeShard_lt (addressHash : Address → Hash) {shardCount : U16}
    (positive : 0 < shardCount.toNat) (txShardId : U16) (sender : Address) :
    ∃ shardId, routeShard addressHash shardCount txShardId sender = some shardId ∧
      shardId.toNat < shardCount.toNat := by
  rw [routeShard]
  split
  next given => exact ⟨txShardId, rfl, BitVec.lt_def.mp given.2⟩
  next other =>
    have present : shardCount ≠ 0 := by
      rintro rfl
      exact Nat.lt_irrefl 0 positive
    refine ⟨_, if_neg present, ?_⟩
    rw [BitVec.toNat_umod]
    exact Nat.mod_lt _ positive

/-! ## Runs -/

def Complete (manager : ShardManager) : Prop :=
  ∀ shardId : U16, shardId.toNat < manager.config.shardCount.toNat →
    ∃ shard, manager.shards.lookup shardId = some shard

theorem complete_initializeShards (sha3 : Sha3) (manager : ShardManager)
    (validatorSet : ValidatorSet) (committee : U64 → List Address) :
    Complete (manager.initializeShards sha3 validatorSet committee) :=
  fun _ created => ⟨_, initializeShards_lookup sha3 manager validatorSet committee created⟩

/-- What routing a transaction does: it is pooled on one shard if the mempool there has room, and
refused if that is full. -/
structure Routed (crates : Crates) (shardId : U16) (tx : Transaction)
    (before after : ShardManager) (answer : Except String U16) : Prop where
  pooled : ∀ placed, answer = .ok placed → placed = shardId ∧
    ∃ pool, after.mempool shardId = some pool ∧
      pool.transactions.lookup (tx.hash crates) = some tx
  others : ∀ other, other ≠ shardId → after.mempool other = before.mempool other
  refused : ∀ text, answer = .error text → text = "Mempool full" ∧ after = before
  full : answer = .error "Mempool full" ↔
    ∃ pool, before.mempool shardId = some pool ∧ pool.maxSize ≤ pool.size
  room : answer = .ok shardId ↔
    ∃ pool, before.mempool shardId = some pool ∧ pool.size < pool.maxSize

section Runs
variable (crates : Crates) (addressHash : Address → Hash) {manager : ShardManager}
  {tx : Transaction} {shardId : U16}

theorem mempool_insert (shardId other : U16) (shard : Shard) :
    ShardManager.mempool { manager with shards := manager.shards.insert shardId shard } other =
      if other = shardId then some shard.config.consensus.mempool else manager.mempool other := by
  rw [ShardManager.mempool, FiniteMap.lookup_insert]
  split <;> rfl

theorem routeTransaction_routed
    (chosen : routeShard addressHash manager.config.shardCount tx.shardId tx.sender = some shardId)
    {shard : Shard} (found : manager.shards.lookup shardId = some shard) :
    ∃ answer, (manager.routeTransaction crates addressHash tx).1 = some answer ∧
      Routed crates shardId tx manager (manager.routeTransaction crates addressHash tx).2
        answer := by
  have pool : manager.mempool shardId = some shard.config.consensus.mempool := by
    rw [ShardManager.mempool, found, Option.map_some]
  by_cases full :
      shard.config.consensus.mempool.maxSize ≤ shard.config.consensus.mempool.size
  · have added : shard.config.consensus.mempool.addTransaction crates tx =
        (.error "Mempool full", shard.config.consensus.mempool) := if_pos full
    -- what is written is the shard that was there
    have same : manager.shards.insert shardId shard = manager.shards :=
      FiniteMap.insert_lookup _ found
    have routed : manager.routeTransaction crates addressHash tx =
        (some (.error "Mempool full"), manager) := by
      simp only [routeTransaction, chosen, found, added, same]
    rw [routed]
    refine ⟨_, rfl, nofun, fun _ _ => rfl, fun text refused => ?_, ?_, ?_⟩
    · exact ⟨(Except.error.inj refused).symm, rfl⟩
    · simp [pool, full]
    · simp [pool, full]
  · -- with room left the transaction is stored under its hash, which is then looked up
    obtain ⟨written, added, pooled⟩ : ∃ pool,
        shard.config.consensus.mempool.addTransaction crates tx = (.ok (), pool) ∧
          pool.transactions.lookup (tx.hash crates) = some tx :=
      ⟨_, if_neg full, Finmap.lookup_insert _⟩
    simp only [routeTransaction, chosen, found, added]
    refine ⟨_, rfl, fun placed answered => ?_, fun other apart => ?_, nofun, ?_, ?_⟩
    · refine ⟨(Except.ok.inj answered).symm, written, ?_, pooled⟩
      exact (mempool_insert shardId shardId _).trans (if_pos rfl)
    · exact (mempool_insert shardId other _).trans (if_neg apart)
    · simp [pool, full]
    · simp [pool, Nat.not_le.mp full]

theorem routeTransaction_complete (complete : Complete manager) (tx : Transaction) :
    (manager.routeTransaction crates addressHash tx).2.config = manager.config ∧
      Complete (manager.routeTransaction crates addressHash tx).2 := by
  cases chosen : routeShard addressHash manager.config.shardCount tx.shardId tx.sender with
  | none =>
    simp only [routeTransaction, chosen]
    exact ⟨trivial, complete⟩
  | some shardId =>
    cases found : manager.shards.lookup shardId with
    | none =>
      simp only [routeTransaction, chosen, found]
      exact ⟨trivial, complete⟩
    | some shard =>
      have kept (written : Shard) : Complete
          { manager with shards := manager.shards.insert shardId written } := by
        intro other created
        obtain ⟨old, before⟩ := complete other created
        by_cases own : other = shardId
        · exact ⟨written, own ▸ Finmap.lookup_insert _⟩
        · exact ⟨old, (Finmap.lookup_insert_of_ne _ own).trans before⟩
      cases added : shard.config.consensus.mempool.addTransaction crates tx with
      | mk answer pool =>
        cases answer with
        | ok done =>
          simp only [routeTransaction, chosen, found, added]
          exact ⟨trivial, kept _⟩
        | error text =>
          simp only [routeTransaction, chosen, found, added]
          exact ⟨trivial, kept _⟩

theorem run_complete (complete : Complete manager) (history : List Transaction) :
    (Runs.run (ShardManager.routeTransaction crates addressHash) manager history).2.config =
        manager.config ∧
      Complete (Runs.run (ShardManager.routeTransaction crates addressHash) manager history).2 := by
  have start : manager.config = manager.config ∧ Complete manager := ⟨rfl, complete⟩
  refine @Runs.run_keeps _ _ _ (ShardManager.routeTransaction crates addressHash)
    (fun state => state.config = manager.config ∧ Complete state) ?_ _ start history
  intro state tx kept
  obtain ⟨same, complete'⟩ := routeTransaction_complete crates addressHash kept.2 tx
  exact ⟨same.trans kept.1, complete'⟩

end Runs

/-- On initialized shards, after any history of routed transactions, a transaction is never
left without a shard: it is put into the mempool of one shard and no other changes, or that
mempool is full and nothing changes. The shard is chosen by the shard id and the sender. -/
theorem routeTransaction_chooses_by_sender (sha3 : Sha3) (crates : Crates)
    (addressHash : Address → Hash) (manager : ShardManager) (validatorSet : ValidatorSet)
    (committee : U64 → List Address) (positive : 1 ≤ manager.config.shardCount.toNat) :
    ∃ chosen : U16 → Address → U16, ∀ (history : List Transaction) (tx : Transaction),
      let reached := (Runs.run (ShardManager.routeTransaction crates addressHash)
        (manager.initializeShards sha3 validatorSet committee) history).2
      let shardId := chosen tx.shardId tx.sender
      shardId.toNat < manager.config.shardCount.toNat ∧
        ∃ answer, (reached.routeTransaction crates addressHash tx).1 = some answer ∧
          answer ≠ .error "Shard not found" ∧
          Routed crates shardId tx reached (reached.routeTransaction crates addressHash tx).2
            answer := by
  choose chosen picked created using routeShard_lt addressHash positive
  refine ⟨chosen, fun history tx => ⟨created _ _, ?_⟩⟩
  obtain ⟨same, complete⟩ := run_complete crates addressHash
    (complete_initializeShards sha3 manager validatorSet committee) history
  obtain ⟨shard, found⟩ := complete (chosen tx.shardId tx.sender)
    (by rw [same]; exact created _ _)
  obtain ⟨answer, answered, routed⟩ := routeTransaction_routed crates addressHash
    (by rw [same]; exact picked tx.shardId tx.sender) found
  refine ⟨answer, answered, ?_, routed⟩
  intro missing
  exact absurd (routed.refused _ missing).1 (by decide)

namespace Sample

/-- Two shards, and addresses that are hashed by their first bytes. -/
def twoShards : ShardManager :=
  ShardManager.new { ChainConfig.default with shardCount := 2 } CrossChainRouter.new

def addressHash (address : Address) : Hash := Hash.new Sample.sha3 address.asBytes.toList

end Sample

theorem routed_sample :
    ∃ answer, ((Sample.twoShards.initializeShards Sample.sha3 ValidatorSet.new
        fun _ => []).routeTransaction Consensus.Sample.crates Sample.addressHash
          (Consensus.Sample.offer .transfer 0 1)).1 = some answer ∧
      answer ≠ .error "Shard not found" := by
  obtain ⟨chosen, routes⟩ := routeTransaction_chooses_by_sender Sample.sha3 Consensus.Sample.crates
    Sample.addressHash Sample.twoShards ValidatorSet.new (fun _ => []) (by decide)
  obtain ⟨-, answer, answered, found, -⟩ := routes [] (Consensus.Sample.offer .transfer 0 1)
  exact ⟨answer, answered, found⟩

end ProtonChain.Multichain
