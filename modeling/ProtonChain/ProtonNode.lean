import ProtonChain.Multichain.Routing
import ProtonChain.Network.NetworkNode

/-! The node that puts the parts together.

A submitted transaction goes into the mempool of a shard. Blocks, balances and the size of the
mempool are read from a consensus engine and a machine that the node has beside its shards, and
that no transaction reaches.
-/

set_option autoImplicit false

namespace ProtonChain

open Consensus Multichain Network Vm

/-! ## Mempools that are only filled -/

namespace Consensus.Mempool

variable (crates : Crates)

def addAll (pool : Mempool) (txs : List Transaction) : Mempool :=
  txs.foldl (fun pool tx => (pool.addTransaction crates tx).2) pool

def hashesOf (txs : List Transaction) : Finset Hash := (txs.map (Transaction.hash crates)).toFinset

theorem hashesOf_concat (txs : List Transaction) (tx : Transaction) :
    hashesOf crates (txs ++ [tx]) = insert (tx.hash crates) (hashesOf crates txs) := by
  unfold hashesOf
  ext hash
  simp [eq_comm]

/-- A pool takes the first hashes up to its size, and after that nothing, not even a hash that it
has. -/
structure Filled (maxSize : Nat) (txs : List Transaction) (pool : Mempool) : Prop where
  maxSize_eq : pool.maxSize = maxSize
  keys_subset : pool.transactions.keys ⊆ hashesOf crates txs
  size_eq : pool.size = min maxSize (hashesOf crates txs).card

theorem filled_addAll (maxSize : Nat) (txs : List Transaction) :
    Filled crates maxSize txs ((Mempool.new maxSize).addAll crates txs) := by
  induction txs using List.reverseRecOn with
  | nil => exact ⟨rfl, Finset.empty_subset _, (Nat.min_zero _).symm⟩
  | append_singleton txs tx ih =>
    obtain ⟨max, subset, size⟩ := ih
    generalize before : (Mempool.new maxSize).addAll crates txs = pool at max subset size
    have step : (Mempool.new maxSize).addAll crates (txs ++ [tx]) =
        (pool.addTransaction crates tx).2 := by
      rw [← before, addAll, List.foldl_append]
      rfl
    have grows : (hashesOf crates txs).card ≤ (hashesOf crates (txs ++ [tx])).card := by
      rw [hashesOf_concat]
      exact Finset.card_le_card (Finset.subset_insert _ _)
    rw [step, addTransaction]
    split
    next full =>
      refine ⟨max, subset.trans ?_, ?_⟩
      · rw [hashesOf_concat]
        exact Finset.subset_insert _ _
      · change pool.size = _
        omega
    next room =>
      -- below its size the pool has all the hashes
      have all : pool.transactions.keys = hashesOf crates txs := by
        refine Finset.eq_of_subset_of_card_le subset ?_
        change _ ≤ pool.size
        omega
      have keys : (pool.transactions.insert (tx.hash crates) tx).keys =
          hashesOf crates (txs ++ [tx]) := by
        rw [FiniteMap.keys_insert, all, hashesOf_concat]
      have bound : (hashesOf crates (txs ++ [tx])).card ≤ (hashesOf crates txs).card + 1 := by
        rw [hashesOf_concat]
        exact Finset.card_insert_le _ _
      refine ⟨max, keys.subset, ?_⟩
      change (pool.transactions.insert (tx.hash crates) tx).keys.card = _
      rw [keys]
      omega

theorem mem_addTransaction {pool : Mempool} {hash : Hash} (member : hash ∈ pool.transactions)
    (tx : Transaction) : hash ∈ (pool.addTransaction crates tx).2.transactions := by
  rw [addTransaction]
  split
  · exact member
  · exact (Finmap.mem_insert ..).mpr (.inr member)

theorem mem_addAll {pool : Mempool} {hash : Hash} (member : hash ∈ pool.transactions)
    (txs : List Transaction) : hash ∈ (pool.addAll crates txs).transactions := by
  induction txs generalizing pool with
  | nil => exact member
  | cons tx txs ih => exact ih (mem_addTransaction crates member tx)

end Consensus.Mempool

/-! ## The node -/

variable (PeerId : Type) in
structure ProtonNode where
  config : ChainConfig
  consensus : HotStuffConsensus
  vm : ProtonVM
  shardManager : ShardManager
  network : NetworkNode PeerId

structure NodeStats where
  height : U64
  mempoolSize : Nat
  shardCount : Nat
  totalTps : U64
  peerCount : Nat
  deriving DecidableEq

namespace ProtonNode

variable {PeerId : Type} (crates : Crates) (addressHash : Address → Hash)

/-- The node when its runtime, database, proof system and network have come up. -/
def new (localPeerId : PeerId) (config : ChainConfig) (committee : U64 → List Address) :
    ProtonNode PeerId where
  config := config
  consensus := HotStuffConsensus.new config ValidatorSet.new
    (Address.new crates.sha3 (List.replicate 32 1))
  vm :=
    { state :=
        { accounts := ∅
          contracts := ∅
          storage := ∅
          blockContext :=
            { height := 0
              timestamp := 0
              coinbase := Address.new crates.sha3 (List.replicate 32 0)
              difficulty := 1
              gasLimit := config.maxBlockGas } }
      gasSchedule := GasSchedule.default }
  shardManager := (ShardManager.new config CrossChainRouter.new).initializeShards crates.sha3
    ValidatorSet.new committee
  network := NetworkNode.new localPeerId (Address.new crates.sha3 (List.replicate 32 1)) 0

/-- Without an answer where the choice of the shard panics. -/
def submitTransaction (node : ProtonNode PeerId) (tx : Transaction) :
    Option (Except String Hash) × ProtonNode PeerId :=
  let hash := tx.hash crates
  let (answer, manager) := node.shardManager.routeTransaction crates addressHash tx
  (answer.map fun answer => answer.map fun _ => hash, { node with shardManager := manager })

def getBalance (node : ProtonNode PeerId) (address : Address) : U128 :=
  ((node.vm.state.accounts.lookup address).map (·.balance)).getD 0

def getBlock (node : ProtonNode PeerId) (height : U64) : Option Block :=
  node.consensus.getBlock height

def getStats (node : ProtonNode PeerId) : NodeStats where
  height := node.consensus.getLatestHeight
  mempoolSize := node.consensus.mempool.size
  shardCount := node.shardManager.shards.keys.card
  totalTps := node.shardManager.getTotalTps
  peerCount := node.network.peerCount

/-! ## Runs -/

section Runs
variable (localPeerId : PeerId) (config : ChainConfig) (committee : U64 → List Address)

/-- The node after submissions. The tasks that `start` spawns tick and change nothing, and
everything else the node offers only reads. -/
def after (txs : List Transaction) : ProtonNode PeerId :=
  (Runs.run (submitTransaction crates addressHash) (new crates localPeerId config committee) txs).2

theorem after_concat (txs : List Transaction) (tx : Transaction) :
    after crates addressHash localPeerId config committee (txs ++ [tx]) =
      ((after crates addressHash localPeerId config committee txs).submitTransaction crates
        addressHash tx).2 := by
  unfold after
  rw [Runs.run_concat]

def shardOf (tx : Transaction) : Option U16 :=
  ShardManager.routeShard addressHash config.shardCount tx.shardId tx.sender

def sentTo (shardId : U16) (txs : List Transaction) : List Transaction :=
  txs.filter fun tx => shardOf addressHash config tx = some shardId

/-- Submissions write the mempools of the shards and nothing else. -/
structure Queues (txs : List Transaction) (node : ProtonNode PeerId) : Prop where
  config_eq : node.shardManager.config = config
  complete : Complete node.shardManager
  mempools : ∀ shardId, shardId.toNat < config.shardCount.toNat →
    node.shardManager.mempool shardId =
      some ((Mempool.new 100000).addAll crates (sentTo addressHash config shardId txs))
  keys : node.shardManager.shards.keys =
    ((ShardManager.new config CrossChainRouter.new).initializeShards crates.sha3
      ValidatorSet.new committee).shards.keys
  processed : node.shardManager.totalTxProcessed = 0
  consensus : node.consensus = (new crates localPeerId config committee).consensus
  vm : node.vm = (new crates localPeerId config committee).vm
  network : node.network = (new crates localPeerId config committee).network

theorem routeTransaction_insert {manager : ShardManager} {tx : Transaction} {shardId : U16}
    {shard : Shard}
    (chosen : ShardManager.routeShard addressHash manager.config.shardCount tx.shardId tx.sender =
      some shardId) (found : manager.shards.lookup shardId = some shard) :
    ∃ written, written.config.consensus.mempool =
        (shard.config.consensus.mempool.addTransaction crates tx).2 ∧
      manager.routeTransaction crates addressHash tx =
        (some ((shard.config.consensus.mempool.addTransaction crates tx).1.map fun _ => shardId),
          { manager with shards := manager.shards.insert shardId written }) := by
  unfold ShardManager.routeTransaction
  cases added : shard.config.consensus.mempool.addTransaction crates tx with
  | mk answer pool =>
    cases answer with
    | ok done => exact ⟨_, rfl, by simp only [chosen, found, added]; rfl⟩
    | error text => exact ⟨_, rfl, by simp only [chosen, found, added]; rfl⟩

/-- The choice falls on a shard that there is, or panics where there is none. -/
theorem shardOf_lt {tx : Transaction} {shardId : U16}
    (chosen : shardOf addressHash config tx = some shardId) :
    shardId.toNat < config.shardCount.toNat := by
  rcases Nat.eq_zero_or_pos config.shardCount.toNat with none_there | positive
  · have zero : config.shardCount = 0 := BitVec.eq_of_toNat_eq none_there
    simp [shardOf, ShardManager.routeShard, zero] at chosen
  · obtain ⟨found, same, bound⟩ := routeShard_lt addressHash positive tx.shardId tx.sender
    rw [shardOf, same] at chosen
    exact Option.some.inj chosen ▸ bound

theorem addAll_sentTo (txs : List Transaction) (tx : Transaction) (shardId other : U16)
    (chosen : shardOf addressHash config tx = some shardId) (pool : Mempool) :
    pool.addAll crates (sentTo addressHash config other (txs ++ [tx])) =
      if other = shardId then
        ((pool.addAll crates (sentTo addressHash config other txs)).addTransaction crates tx).2
      else pool.addAll crates (sentTo addressHash config other txs) := by
  unfold sentTo
  split
  next own =>
    subst own
    simp [chosen, Mempool.addAll]
  next apart => simp [chosen, Ne.symm apart]

theorem queues_after (txs : List Transaction) :
    Queues crates addressHash localPeerId config committee txs
      (after crates addressHash localPeerId config committee txs) := by
  induction txs using List.reverseRecOn with
  | nil =>
    refine ⟨rfl, complete_initializeShards _ _ _ _, fun shardId created => ?_, rfl, rfl, rfl, rfl,
      rfl⟩
    rw [ShardManager.mempool]
    exact congrArg (Option.map _) (initializeShards_lookup crates.sha3
      (ShardManager.new config CrossChainRouter.new) ValidatorSet.new committee created)
  | append_singleton txs tx ih =>
    rw [after_concat]
    generalize after crates addressHash localPeerId config committee txs = node at ih
    cases chosen : shardOf addressHash config tx with
    | none =>
      -- the choice of the shard panics, and nothing is written
      have same : node.shardManager.routeTransaction crates addressHash tx =
          (none, node.shardManager) := by
        unfold ShardManager.routeTransaction
        rw [ih.config_eq, ← shardOf, chosen]
      have none_sent : ∀ shardId,
          sentTo addressHash config shardId (txs ++ [tx]) =
            sentTo addressHash config shardId txs := by
        intro shardId
        simp [sentTo, chosen]
      simp only [submitTransaction, same]
      refine ⟨ih.config_eq, ih.complete, fun shardId created => ?_, ih.keys, ih.processed,
        ih.consensus, ih.vm, ih.network⟩
      rw [none_sent]
      exact ih.mempools shardId created
    | some shardId =>
      have created := shardOf_lt addressHash config chosen
      obtain ⟨shard, found⟩ := ih.complete shardId (by rw [ih.config_eq]; exact created)
      obtain ⟨written, pool, routed⟩ := routeTransaction_insert crates addressHash
        (by rw [ih.config_eq]; exact chosen) found
      have before := ih.mempools shardId created
      rw [ShardManager.mempool, found, Option.map_some, Option.some.injEq] at before
      simp only [submitTransaction, routed]
      refine ⟨ih.config_eq, ?_, fun other present => ?_, ?_, ih.processed, ih.consensus, ih.vm,
        ih.network⟩
      · have kept := (routeTransaction_complete crates addressHash ih.complete tx).2
        rwa [routed] at kept
      · rw [mempool_insert, addAll_sentTo crates addressHash config txs tx shardId other chosen]
        split
        next own => rw [pool, before, own]
        next => exact ih.mempools other present
      · rw [FiniteMap.keys_insert, ← ih.keys]
        exact Finset.insert_eq_of_mem (Finmap.mem_keys.mpr (Finmap.mem_of_lookup_eq_some found))

/-! ### What the node answers -/

theorem keys_initializeShards (sha3 : Sha3) (manager : ShardManager) (validatorSet : ValidatorSet)
    (empty : manager.shards = ∅) :
    (manager.initializeShards sha3 validatorSet committee).shards.keys.card =
      manager.config.shardCount.toNat := by
  have bound : manager.config.shardCount.toNat ≤ 2 ^ 16 :=
    Nat.le_of_lt manager.config.shardCount.isLt
  rw [ShardManager.initializeShards]
  generalize manager.config.shardCount.toNat = count at bound
  have keys : ((List.range count).foldl (fun shards index => shards.insert (BitVec.ofNat 16 index)
      (ShardManager.initialShard sha3 manager.config validatorSet committee
        (BitVec.ofNat 16 index))) manager.shards).keys =
      (Finset.range count).image (BitVec.ofNat 16) := by
    clear bound
    induction count with
    | zero =>
      rw [empty]
      rfl
    | succ count ih =>
      rw [List.range_succ, List.foldl_append, List.foldl_cons, List.foldl_nil,
        FiniteMap.keys_insert, ih, Finset.range_add_one, Finset.image_insert]
  rw [keys, Finset.card_image_of_injOn, Finset.card_range]
  -- ids below the bound are distinct words
  intro first one second two same
  have values := congrArg BitVec.toNat same
  rw [Finset.coe_range, Set.mem_Iio] at one two
  rwa [BitVec.toNat_ofNat, BitVec.toNat_ofNat, Nat.mod_eq_of_lt (by omega),
    Nat.mod_eq_of_lt (by omega)] at values

theorem submitTransaction_answer (txs : List Transaction) (tx : Transaction) :
    ((after crates addressHash localPeerId config committee txs).submitTransaction crates
        addressHash tx).1 =
      (shardOf addressHash config tx).map fun shardId =>
        if (Mempool.hashesOf crates (sentTo addressHash config shardId txs)).card < 100000 then
          .ok (tx.hash crates)
        else .error "Mempool full" := by
  have queues := queues_after crates addressHash localPeerId config committee txs
  generalize after crates addressHash localPeerId config committee txs = node at queues
  cases chosen : shardOf addressHash config tx with
  | none =>
    have panics : node.shardManager.routeTransaction crates addressHash tx =
        (none, node.shardManager) := by
      unfold ShardManager.routeTransaction
      rw [queues.config_eq, ← shardOf, chosen]
    simp only [submitTransaction, panics, Option.map_none]
  | some shardId =>
    have created := shardOf_lt addressHash config chosen
    obtain ⟨shard, found⟩ := queues.complete shardId (by rw [queues.config_eq]; exact created)
    obtain ⟨written, -, routed⟩ := routeTransaction_insert crates addressHash
      (by rw [queues.config_eq]; exact chosen) found
    have pool := queues.mempools shardId created
    rw [ShardManager.mempool, found, Option.map_some, Option.some.injEq] at pool
    obtain ⟨max, -, size⟩ := Mempool.filled_addAll crates 100000
      (sentTo addressHash config shardId txs)
    rw [← pool] at max size
    simp only [submitTransaction, routed, Option.map_some, Mempool.addTransaction, max]
    split
    next full => rw [if_neg (by omega)]; rfl
    next room => rw [if_pos (by omega)]; rfl

/-- Each shard takes its first 100000 distinct hashes and refuses everything after them. What it has
taken waits there forever: no balance, block or statistic of the node ever shows it. -/
theorem submissions_wait (txs : List Transaction) :
    (∀ tx, ((after crates addressHash localPeerId config committee txs).submitTransaction crates
        addressHash tx).1 =
      (shardOf addressHash config tx).map fun shardId =>
        if (Mempool.hashesOf crates (sentTo addressHash config shardId txs)).card < 100000 then
          .ok (tx.hash crates)
        else .error "Mempool full") ∧
    (∀ earlier tx later shardId, txs = earlier ++ tx :: later →
      shardOf addressHash config tx = some shardId →
      ((after crates addressHash localPeerId config committee earlier).submitTransaction crates
        addressHash tx).1 = some (.ok (tx.hash crates)) →
      ∃ pool, (after crates addressHash localPeerId config committee txs).shardManager.mempool
          shardId = some pool ∧ tx.hash crates ∈ pool.transactions) ∧
    (∀ address, (after crates addressHash localPeerId config committee txs).getBalance address =
      0) ∧
    (∀ height, (after crates addressHash localPeerId config committee txs).getBlock height =
      none) ∧
    (after crates addressHash localPeerId config committee txs).getStats =
      ⟨0, 0, config.shardCount.toNat, 0, 0⟩ := by
  have queues := queues_after crates addressHash localPeerId config committee txs
  refine ⟨submitTransaction_answer crates addressHash localPeerId config committee txs, ?_, ?_, ?_,
    ?_⟩
  · rintro earlier tx later shardId rfl chosen accepted
    have created := shardOf_lt addressHash config chosen
    refine ⟨_, queues.mempools shardId created, ?_⟩
    rw [submitTransaction_answer, chosen, Option.map_some, Option.some.injEq] at accepted
    have small : (Mempool.hashesOf crates (sentTo addressHash config shardId earlier)).card <
        100000 := by
      by_contra full
      rw [if_neg full] at accepted
      cases accepted
    -- the pool had room when the transaction came, and keeps it
    have split : (Mempool.new 100000).addAll crates
        (sentTo addressHash config shardId (earlier ++ tx :: later)) =
      (((Mempool.new 100000).addAll crates
          (sentTo addressHash config shardId earlier)).addTransaction crates tx).2.addAll crates
        (sentTo addressHash config shardId later) := by
      simp [sentTo, chosen, Mempool.addAll]
    rw [split]
    refine Mempool.mem_addAll crates ?_ _
    obtain ⟨max, -, size⟩ := Mempool.filled_addAll crates 100000
      (sentTo addressHash config shardId earlier)
    rw [Mempool.addTransaction, if_neg (by omega)]
    exact (Finmap.mem_insert ..).mpr (.inl rfl)
  · intro address
    rw [getBalance, queues.vm]
    rfl
  · intro height
    rw [getBlock, queues.consensus]
    rfl
  · rw [getStats, ShardManager.getTotalTps, queues.consensus, queues.keys, queues.processed,
      queues.network, keys_initializeShards committee crates.sha3 _ ValidatorSet.new rfl]
    rfl

end Runs

end ProtonNode

end ProtonChain
