import ProtonChain.Consensus.Selection

/-! What a removal leaves.

A removal takes the listed hashes out of the selection and moves nothing else. Each index
is changed by what is listed, not by the order in which it is.
-/

set_option autoImplicit false

namespace ProtonChain.Consensus

namespace Mempool

section Indexes
variable {pool : Mempool}

/-- A price is indexed exactly if something is. -/
theorem Occupied.mem_iff (occupied : pool.Occupied) (price : U128) :
    price ∈ pool.byGasPrice ↔ pool.bucket price ≠ [] := by
  rw [← Finmap.lookup_isSome, bucket]
  cases found : pool.byGasPrice.lookup price with
  | none => simp
  | some hashes => simpa using occupied price hashes found

theorem Occupied.lookup_eq (occupied : pool.Occupied) (price : U128) :
    pool.byGasPrice.lookup price =
      if pool.bucket price = [] then none else some (pool.bucket price) := by
  rw [bucket]
  cases found : pool.byGasPrice.lookup price with
  | none => simp
  | some hashes =>
    have filled := occupied price hashes found
    simp [filled]

theorem eq_of_lookups {other : Mempool} (occupied : pool.Occupied) (occupied' : other.Occupied)
    (transactions : ∀ hash, pool.transactions.lookup hash = other.transactions.lookup hash)
    (byNonce : ∀ key, pool.byNonce.lookup key = other.byNonce.lookup key)
    (buckets : ∀ price, pool.bucket price = other.bucket price)
    (maxSize : pool.maxSize = other.maxSize) : pool = other := by
  have byGasPrice : ∀ price, pool.byGasPrice.lookup price = other.byGasPrice.lookup price := by
    intro price
    rw [occupied.lookup_eq, occupied'.lookup_eq, buckets]
  cases pool
  cases other
  simp only [Mempool.mk.injEq]
  exact ⟨Finmap.ext_lookup transactions, Finmap.ext_lookup byNonce, Finmap.ext_lookup byGasPrice,
    maxSize⟩

theorem removeTransactions_congr (occupied : pool.Occupied) {hashes other : List Hash}
    (same : ∀ hash, hash ∈ other ↔ hash ∈ hashes) :
    pool.removeTransactions other = pool.removeTransactions hashes := by
  apply eq_of_lookups (occupied.removed other) (occupied.removed hashes)
  · intro hash
    simp only [removeTransactions_lookup, same]
  · intro key
    simp only [removeTransactions_byNonce, same]
  · intro price
    simp only [removeTransactions_bucket, same]
  · simp only [removeTransactions_maxSize]

end Indexes

/-! ## The selection -/

section Selection
variable {crates : Crates} {pool : Mempool} (hashes : List Hash) (minGasPrice : U128)

theorem prices_removed (occupied : pool.Occupied) :
    (pool.removeTransactions hashes).prices minGasPrice =
      (pool.prices minGasPrice).filter fun price =>
        (pool.removeTransactions hashes).bucket price ≠ [] := by
  have perm : ((pool.removeTransactions hashes).prices minGasPrice).Perm
      ((pool.prices minGasPrice).filter fun price =>
        (pool.removeTransactions hashes).bucket price ≠ []) := by
    rw [List.perm_ext_iff_of_nodup (prices_nodup _ _) ((prices_nodup _ _).filter _)]
    intro price
    have before : (pool.removeTransactions hashes).bucket price ≠ [] → pool.bucket price ≠ [] := by
      intro filled empty
      simp [empty] at filled
    simp only [List.mem_filter, mem_prices, (occupied.removed hashes).mem_iff, occupied.mem_iff,
      decide_eq_true_eq]
    tauto
  exact perm.eq_of_pairwise' (prices_descending _ _) ((prices_descending _ _).filter _)

theorem bucket_removed (keyed : pool.Keyed crates) (price : U128) :
    ((pool.removeTransactions hashes).bucket price).filterMap
        (pool.removeTransactions hashes).pooled =
      ((pool.bucket price).filterMap pool.pooled).filter fun tx => tx.hash crates ∉ hashes := by
  rw [removeTransactions_bucket, List.filterMap_filter, List.filter_filterMap]
  apply List.filterMap_congr
  intro hash _
  simp only [pooled, removeTransactions_lookup]
  cases found : pool.transactions.lookup hash with
  | none => simp
  | some tx =>
    -- the transaction is pooled under its own hash, so one test is the other
    obtain rfl := keyed hash tx found
    by_cases listed : tx.hash crates ∈ hashes
    · simp [Option.filter, listed]
    · simp [Option.filter, listed]

theorem selection_removed (keyed : pool.Keyed crates) (occupied : pool.Occupied) :
    (pool.removeTransactions hashes).selection minGasPrice =
      (pool.selection minGasPrice).filter fun tx => tx.hash crates ∉ hashes := by
  have dropped : ∀ price ∈ pool.prices minGasPrice,
      decide ((pool.removeTransactions hashes).bucket price ≠ []) = false →
        (pool.removeTransactions hashes).bucket price = [] := by
    intro price _ empty
    simpa using empty
  rw [selection, candidates, prices_removed hashes minGasPrice occupied,
    Ranking.flatMap_filter _ _ _ dropped, List.filterMap_flatMap, selection, candidates,
    List.filterMap_flatMap, List.filter_flatMap]
  congr 1
  funext price
  exact bucket_removed hashes keyed price

theorem length_selection_le :
    (pool.selection minGasPrice).length ≤ pool.entryCount minGasPrice := by
  rw [entryCount_eq, selection]
  exact List.length_filterMap_le _ _

theorem getTransactions_full {limit : Nat} (room : (pool.selection minGasPrice).length ≤ limit) :
    pool.getTransactions limit minGasPrice = pool.selection minGasPrice := by
  rw [getTransactions_eq]
  exact List.take_of_length_le (by omega)

end Selection

end Mempool

/-! ## Pools that calls lead to -/

theorem call_occupied {crates : Crates} {pool : Mempool} (occupied : pool.Occupied)
    (call : PoolCall) : (pool.call crates call).2.Occupied := by
  cases call with
  | add tx =>
    rcases Mempool.addTransaction_cases crates pool tx with ⟨-, same⟩ | ⟨-, same⟩
    · rw [Mempool.call, same]
      exact occupied
    · rw [Mempool.call, same]
      exact occupied.added crates tx
  | remove hashes => exact occupied.removed hashes

theorem new_occupied (maxSize : Nat) : (Mempool.new maxSize).Occupied := by
  intro price hashes found
  cases found

theorem run_occupied (crates : Crates) (maxSize : Nat) (calls : List PoolCall) :
    (Runs.run (Mempool.call crates) (Mempool.new maxSize) calls).2.Occupied :=
  @Runs.run_keeps _ _ _ _ Mempool.Occupied (fun _ call now => call_occupied now call) _
    (new_occupied maxSize) calls

theorem run_keyed (crates : Crates) (maxSize : Nat) (calls : List PoolCall) :
    (Runs.run (Mempool.call crates) (Mempool.new maxSize) calls).2.Keyed crates :=
  @Runs.run_keeps _ _ _ _ (Mempool.Keyed crates) (fun _ call now => call_keyed now call) _
    (new_keyed crates maxSize) calls

/-- A removal leaves what is not listed, in the pool and in the selection, and does not look
at the order of its list. -/
theorem removal_correct (crates : Crates) (maxSize : Nat) (calls : List PoolCall)
    (hashes : List Hash) :
    let pool := (Runs.run (Mempool.call crates) (Mempool.new maxSize) calls).2
    let after := pool.removeTransactions hashes
    (∀ hash, after.transactions.lookup hash =
        if hash ∈ hashes then none else pool.transactions.lookup hash) ∧
      (∀ limit minGasPrice, pool.entryCount minGasPrice ≤ limit →
        after.getTransactions limit minGasPrice =
          (pool.getTransactions limit minGasPrice).filter fun tx => tx.hash crates ∉ hashes) ∧
      ∀ other : List Hash, other.Perm hashes →
        (pool.removeTransactions other).transactions = after.transactions ∧
          (pool.removeTransactions other).byNonce = after.byNonce ∧
          (pool.removeTransactions other).byGasPrice = after.byGasPrice := by
  intro pool after
  have occupied : pool.Occupied := run_occupied crates maxSize calls
  have keyed : pool.Keyed crates := run_keyed crates maxSize calls
  refine ⟨fun hash => Mempool.removeTransactions_lookup pool hashes hash, ?_, ?_⟩
  · intro limit minGasPrice room
    have before := (Mempool.length_selection_le minGasPrice).trans room
    have left := Mempool.selection_removed hashes minGasPrice keyed occupied
    have fewer : (after.selection minGasPrice).length ≤ limit := by
      rw [left]
      exact (List.length_filter_le _ _).trans before
    rw [Mempool.getTransactions_full minGasPrice before,
      Mempool.getTransactions_full minGasPrice fewer, left]
  · intro other perm
    rw [Mempool.removeTransactions_congr occupied fun hash => perm.mem_iff]
    exact ⟨rfl, rfl, rfl⟩

/-- The dearer of two offers goes, together with a hash that nobody knows. -/
theorem removal_correct_sample :
    let pool := (Runs.run (Mempool.call Sample.crates) (Mempool.new 1000)
      (Sample.twoOffers 1 2)).2
    let hashes := [(Sample.offer .transfer 2 20).hash Sample.crates, Hash.zero]
    (pool.removeTransactions hashes).getTransactions 2 1 =
        (pool.getTransactions 2 1).filter (fun tx => tx.hash Sample.crates ∉ hashes) ∧
      (pool.removeTransactions hashes.reverse).byGasPrice =
        (pool.removeTransactions hashes).byGasPrice := by
  intro pool hashes
  obtain ⟨-, selects, orders⟩ :=
    removal_correct Sample.crates 1000 (Sample.twoOffers 1 2) hashes
  exact ⟨selects 2 1 (by decide), (orders hashes.reverse hashes.reverse_perm).2.2⟩

end ProtonChain.Consensus
