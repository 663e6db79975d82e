import ProtonChain.Consensus.PoolIndexes

/-! The order of a proposal.

Next to the pool runs a queue of its transactions in the order in which they
were submitted. A proposal is the head of this queue by price, equal prices by
arrival, and the nonces have no part in it.
-/

set_option autoImplicit false

namespace ProtonChain.Consensus

/-! ## The queue of submissions -/

section Queue
variable (crates : Crates) (maxSize : Nat)

def distinctHashes (queue : List Transaction) : Finset Hash :=
  (queue.map (Transaction.hash crates)).toFinset

/-- What a call does to the queue. -/
def queueCall (queue : List Transaction) : PoolCall → List Transaction
  | .add tx => if maxSize ≤ (distinctHashes crates queue).card then queue else queue ++ [tx]
  | .remove hashes => queue.filter fun tx => tx.hash crates ∉ hashes

def queueOf (calls : List PoolCall) : List Transaction :=
  calls.foldl (queueCall crates maxSize) []

def submitted (calls : List PoolCall) : List Transaction :=
  calls.filterMap fun
    | .add tx => some tx
    | .remove _ => none

/-- Equal hashes are hashes of equal transactions. -/
def Distinguishes (txs : List Transaction) : Prop :=
  ∀ tx ∈ txs, ∀ other ∈ txs, tx.hash crates = other.hash crates → tx = other

instance (txs : List Transaction) : Decidable (Distinguishes crates txs) :=
  inferInstanceAs (Decidable (∀ tx ∈ txs, ∀ other ∈ txs,
    tx.hash crates = other.hash crates → tx = other))

/-- The pool holds the transactions of the queue, every bucket in the order of the queue. -/
structure Represents (pool : Mempool) (queue : List Transaction) : Prop where
  pooled : ∀ hash tx, pool.transactions.lookup hash = some tx ↔
    tx ∈ queue ∧ tx.hash crates = hash
  bucket : ∀ price, pool.bucket price =
    (queue.filter fun tx => tx.gasPrice = price).map (Transaction.hash crates)
  maxSize : pool.maxSize = maxSize

end Queue

theorem submitted_cons (call : PoolCall) (rest : List PoolCall) :
    submitted (call :: rest) = submitted [call] ++ submitted rest := by
  cases call with
  | add tx => rfl
  | remove hashes => rfl

theorem Distinguishes.mono {crates : Crates} {txs others : List Transaction}
    (apart : Distinguishes crates others) (known : txs ⊆ others) : Distinguishes crates txs :=
  fun tx first other second => apart tx (known first) other (known second)

section Simulation
variable {crates : Crates} {maxSize : Nat} {pool : Mempool} {queue : List Transaction}

theorem Represents.size (rep : Represents crates maxSize pool queue) :
    pool.size = (distinctHashes crates queue).card := by
  rw [Mempool.size, distinctHashes]
  congr 1
  ext hash
  rw [Finmap.mem_keys, ← Finmap.lookup_isSome, Option.isSome_iff_exists, List.mem_toFinset,
    List.mem_map]
  exact exists_congr fun tx => rep.pooled hash tx

theorem Represents.added (rep : Represents crates maxSize pool queue) {tx : Transaction}
    (apart : Distinguishes crates (queue ++ [tx])) :
    Represents crates maxSize (pool.added crates tx) (queue ++ [tx]) where
  pooled hash other := by
    rw [Mempool.added_lookup]
    split
    · rename_i same
      subst same
      constructor
      · intro found
        cases found
        exact ⟨by simp, rfl⟩
      · rintro ⟨member, same⟩
        rw [apart other member tx (by simp) same]
    · rename_i differ
      rw [rep.pooled]
      constructor
      · rintro ⟨member, same⟩
        exact ⟨List.mem_append_left _ member, same⟩
      · rintro ⟨member, same⟩
        rcases List.mem_append.mp member with old | new
        · exact ⟨old, same⟩
        · rw [List.mem_singleton.mp new] at same
          exact absurd same.symm differ
  bucket price := by
    rw [Mempool.added_bucket, rep.bucket, List.filter_append, List.map_append]
    congr 1
    by_cases same : tx.gasPrice = price
    · simp [same]
    · simp [same, Ne.symm same]
  maxSize := rep.maxSize

theorem Represents.removed (rep : Represents crates maxSize pool queue) (hashes : List Hash) :
    Represents crates maxSize (pool.removeTransactions hashes)
      (queue.filter fun tx => tx.hash crates ∉ hashes) where
  pooled hash tx := by
    rw [Mempool.removeTransactions_lookup, List.mem_filter, decide_eq_true_eq]
    split
    · rename_i listed
      refine iff_of_false nofun ?_
      rintro ⟨⟨_, kept⟩, rfl⟩
      exact kept listed
    · rename_i kept
      rw [rep.pooled]
      constructor
      · rintro ⟨member, rfl⟩
        exact ⟨⟨member, kept⟩, rfl⟩
      · rintro ⟨⟨member, _⟩, same⟩
        exact ⟨member, same⟩
  bucket price := by
    rw [Mempool.removeTransactions_bucket, rep.bucket, List.filter_map, List.filter_filter,
      List.filter_filter]
    congr 1
    refine List.filter_congr fun tx member => ?_
    by_cases same : tx.gasPrice = price
    · -- in its own bucket the hash is dropped if it is listed, being pooled at this price
      have priced : pool.priceOf (tx.hash crates) = some price := by
        rw [Mempool.priceOf, (rep.pooled _ tx).mpr ⟨member, rfl⟩, Option.map_some, same]
      simp [same, priced]
    · simp [same]
  maxSize := (Mempool.removeTransactions_maxSize pool hashes).trans rep.maxSize

theorem call_represents (rep : Represents crates maxSize pool queue) (call : PoolCall)
    (apart : Distinguishes crates (queue ++ submitted [call])) :
    Represents crates maxSize (pool.call crates call).2 (queueCall crates maxSize queue call) := by
  cases call with
  | add tx =>
    have limits := rep.maxSize
    subst limits
    rw [queueCall, ← rep.size]
    rcases Mempool.addTransaction_cases crates pool tx with ⟨full, same⟩ | ⟨room, same⟩
    · rw [Mempool.call, same, if_pos full]
      exact rep
    · rw [Mempool.call, same, if_neg room]
      exact rep.added apart
  | remove hashes => exact rep.removed hashes

theorem mem_queueCall {call : PoolCall} {tx : Transaction}
    (member : tx ∈ queueCall crates maxSize queue call) :
    tx ∈ queue ++ submitted [call] := by
  cases call with
  | add new =>
    rw [queueCall] at member
    split at member
    · exact List.mem_append_left _ member
    · exact member
  | remove hashes => exact List.mem_append_left _ (List.mem_filter.mp member).1

theorem run_represents (calls : List PoolCall) (rep : Represents crates maxSize pool queue)
    (apart : Distinguishes crates (queue ++ submitted calls)) :
    Represents crates maxSize (Runs.run (Mempool.call crates) pool calls).2
      (calls.foldl (queueCall crates maxSize) queue) := by
  induction calls generalizing pool queue with
  | nil => exact rep
  | cons call rest ih =>
    have split : queue ++ submitted (call :: rest) =
        queue ++ submitted [call] ++ submitted rest := by
      rw [submitted_cons, List.append_assoc]
    rw [split] at apart
    rw [Runs.run_cons, List.foldl_cons]
    -- nothing is in the next queue that was not in this one or in the call
    have known : queueCall crates maxSize queue call ++ submitted rest ⊆
        queue ++ submitted [call] ++ submitted rest :=
      List.append_subset.mpr ⟨fun tx member => List.mem_append_left _ (mem_queueCall member),
        List.subset_append_right _ _⟩
    exact ih (call_represents rep call (apart.mono (List.subset_append_left _ _)))
      (apart.mono known)

theorem new_represents (crates : Crates) (maxSize : Nat) :
    Represents crates maxSize (Mempool.new maxSize) [] where
  pooled hash tx := iff_of_false nofun fun listed => by cases listed.1
  bucket price := rfl
  maxSize := rfl

end Simulation

/-! ## Selection from the queue -/

/-- A higher price, or the same price and an earlier arrival. -/
def Outranks (first second : Transaction × Nat) : Prop :=
  Ranking.Ahead Transaction.gasPrice (fun price other => other < price) first second

/-- The numbered transactions of the queue that pay the minimum, the first in rank first. -/
structure Ranked (queue : List Transaction) (minGasPrice : U128)
    (ranked : List (Transaction × Nat)) : Prop where
  entries : ranked.Perm (queue.zipIdx.filter fun entry => minGasPrice ≤ entry.1.gasPrice)
  sorted : ranked.Pairwise Outranks

/-- The transactions of each sender come in the strict order of their nonces. -/
def NonceOrdered (txs : List Transaction) : Prop :=
  txs.Pairwise fun first second => first.sender = second.sender → first.nonce < second.nonce

instance : DecidablePred NonceOrdered := fun txs =>
  inferInstanceAs (Decidable (txs.Pairwise fun first second =>
    first.sender = second.sender → first.nonce < second.nonce))

section Selection
variable {crates : Crates} {maxSize : Nat} {pool : Mempool} {queue : List Transaction}

theorem prices_falling (pool : Mempool) (minGasPrice : U128) :
    (pool.prices minGasPrice).Pairwise fun price other => other < price := by
  refine ((pool.prices_descending minGasPrice).and (pool.prices_nodup minGasPrice)).imp ?_
  rintro price other ⟨down, apart⟩
  exact BitVec.not_le.mp fun up => apart (BitVec.le_antisymm up down)

theorem Represents.bucket_pooled (rep : Represents crates maxSize pool queue) (price : U128) :
    (pool.bucket price).filterMap pool.pooled =
      queue.filter fun tx => tx.gasPrice = price := by
  rw [rep.bucket, List.filterMap_map]
  have back : ∀ tx ∈ queue.filter fun tx => tx.gasPrice = price,
      (pool.pooled ∘ Transaction.hash crates) tx = some tx := fun tx member =>
    (rep.pooled _ tx).mpr ⟨(List.mem_filter.mp member).1, rfl⟩
  rw [List.filterMap_congr back, List.filterMap_some]

theorem Represents.mem_prices (rep : Represents crates maxSize pool queue) (minGasPrice : U128)
    {tx : Transaction} (member : tx ∈ queue) :
    tx.gasPrice ∈ pool.prices minGasPrice ↔ minGasPrice ≤ tx.gasPrice := by
  have listed : tx.hash crates ∈ pool.bucket tx.gasPrice := by
    rw [rep.bucket]
    exact List.mem_map_of_mem (List.mem_filter.mpr ⟨member, decide_eq_true rfl⟩)
  rw [Mempool.mem_prices]
  exact and_iff_right (pool.indexed_of_bucket listed)

theorem Represents.selection (rep : Represents crates maxSize pool queue) (minGasPrice : U128) :
    ∃ ranked, Ranked queue minGasPrice ranked ∧
      pool.selection minGasPrice = ranked.map Prod.fst := by
  have ahead := Ranking.byKey_ahead Transaction.gasPrice _ (prices_falling pool minGasPrice) queue
  have perm := Ranking.byKey_perm (fun entry : Transaction × Nat => entry.1.gasPrice)
    (pool.prices_nodup minGasPrice) queue.zipIdx
  have eligible : (queue.zipIdx.filter fun entry =>
      decide (entry.1.gasPrice ∈ pool.prices minGasPrice)) =
        queue.zipIdx.filter fun entry => minGasPrice ≤ entry.1.gasPrice := by
    refine List.filter_congr fun entry member => ?_
    exact decide_eq_decide.mpr (rep.mem_prices minGasPrice (List.fst_mem_of_mem_zipIdx member))
  rw [eligible] at perm
  refine ⟨_, ⟨perm, ahead⟩, ?_⟩
  rw [Ranking.byKey_forget, Mempool.selection, Mempool.candidates, List.filterMap_flatMap]
  unfold Ranking.byKey
  congr 1
  funext price
  exact rep.bucket_pooled price

end Selection

/-- Every proposal is the head of the queue in rank, and is in nonce order exactly if of
any two of its entries by one sender the outranking one has the smaller nonce. -/
theorem proposal_order (crates : Crates) (maxSize : Nat) (calls : List PoolCall)
    (apart : Distinguishes crates (submitted calls)) (node : HotStuffConsensus)
    (reached : node.mempool = (Runs.run (Mempool.call crates) (Mempool.new maxSize) calls).2)
    {prevHash : Hash} {timestamp : U64} {block : Block}
    (proposed : node.proposeBlock crates prevHash timestamp = some block) :
    ∃ ranked, Ranked (queueOf crates maxSize calls) node.config.minGasPrice ranked ∧
      block.transactions = (ranked.take 1000).map Prod.fst ∧
      (NonceOrdered block.transactions ↔
        ∀ first ∈ ranked.take 1000, ∀ second ∈ ranked.take 1000, Outranks first second →
          first.1.sender = second.1.sender → first.1.nonce < second.1.nonce) := by
  have rep := run_represents calls (new_represents crates maxSize) apart
  rw [← reached] at rep
  obtain ⟨ranked, ranks, selection⟩ := rep.selection node.config.minGasPrice
  have chosen : block.transactions = (ranked.take 1000).map Prod.fst := by
    rw [← (HotStuffConsensus.proposeBlock_eq_some crates proposed).selection,
      Mempool.getTransactions_eq, selection, List.map_take]
    rfl
  refine ⟨ranked, ranks, chosen, ?_⟩
  rw [chosen, NonceOrdered, List.pairwise_map]
  -- a rank has a direction, so the order of the block is that of the ranks
  exact Ranking.pairwise_iff (Ranking.Ahead.asymm _ _ fun _ _ => BitVec.lt_asymm)
    (ranks.sorted.sublist (List.take_sublist _ _))

namespace Sample

/-- Two transactions of one sender, the second one at twice the price. -/
def twoOffers (firstNonce secondNonce : U64) : List PoolCall :=
  [.add (offer .transfer firstNonce 10), .add (offer .transfer secondNonce 20)]

def offeredNode (firstNonce secondNonce : U64) : HotStuffConsensus :=
  { node with
    mempool := (Runs.run (Mempool.call crates) (Mempool.new 100000)
      (twoOffers firstNonce secondNonce)).2 }

theorem offeredNode_selects (firstNonce secondNonce : U64)
    (swap : firstNonce = 1 ∧ secondNonce = 2 ∨ firstNonce = 2 ∧ secondNonce = 1) :
    (offeredNode firstNonce secondNonce).mempool.getTransactions 1000
        (offeredNode firstNonce secondNonce).config.minGasPrice =
      [offer .transfer secondNonce 20, offer .transfer firstNonce 10] := by
  change (offeredNode firstNonce secondNonce).mempool.getTransactions 1000 1 = _
  rcases swap with ⟨rfl, rfl⟩ | ⟨rfl, rfl⟩
  · rw [Mempool.getTransactions_eq, Mempool.selection_listed _ _ [20, 10] (by decide) (by decide)
      (by decide) (by simp)]
    decide
  · rw [Mempool.getTransactions_eq, Mempool.selection_listed _ _ [20, 10] (by decide) (by decide)
      (by decide) (by simp)]
    decide

end Sample

/-- Where the price falls with the nonce, the proposal is in nonce order. -/
theorem proposal_order_sample :
    ∃ block ranked, (Sample.offeredNode 2 1).proposeBlock Sample.crates Hash.zero 0 = some block ∧
      block.transactions = [Sample.offer .transfer 1 20, Sample.offer .transfer 2 10] ∧
      Ranked (queueOf Sample.crates 100000 (Sample.twoOffers 2 1)) 1 ranked ∧
      block.transactions = (ranked.take 1000).map Prod.fst := by
  have selected := Sample.offeredNode_selects 2 1 (by decide)
  obtain ⟨block, proposed, same⟩ := HotStuffConsensus.proposes Sample.crates
    (Sample.offeredNode 2 1) Hash.zero 0 (by rw [selected]; decide)
  obtain ⟨ranked, ranks, chosen, -⟩ := proposal_order Sample.crates 100000
    (Sample.twoOffers 2 1) (by decide) (Sample.offeredNode 2 1) rfl proposed
  exact ⟨block, ranked, proposed, same.trans selected, ranks, chosen⟩

/-- The sender's second transaction pays more and comes before the first. -/
theorem price_overtakes_nonce :
    Distinguishes Sample.crates (submitted (Sample.twoOffers 1 2)) ∧
      ∃ block, (Sample.offeredNode 1 2).proposeBlock Sample.crates Hash.zero 0 = some block ∧
        block.transactions = [Sample.offer .transfer 2 20, Sample.offer .transfer 1 10] ∧
        ¬ NonceOrdered block.transactions := by
  have selected := Sample.offeredNode_selects 1 2 (by decide)
  obtain ⟨block, proposed, same⟩ := HotStuffConsensus.proposes Sample.crates
    (Sample.offeredNode 1 2) Hash.zero 0 (by rw [selected]; decide)
  rw [selected] at same
  refine ⟨by decide, block, proposed, same, ?_⟩
  rw [same]
  decide

end ProtonChain.Consensus
