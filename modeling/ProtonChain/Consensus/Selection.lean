import Mathlib.Algebra.BigOperators.Group.Finset.Basic
import ProtonChain.Consensus.Ordering

/-! What a selection returns, against all that the price index holds.

After every history of additions and removals each entry of the index leads to a pooled
transaction of its price, so nothing is passed over but for the limit.
-/

set_option autoImplicit false

namespace ProtonChain.Consensus

/-- The entries of the index at prices that pay the minimum. -/
def Mempool.entryCount (pool : Mempool) (minGasPrice : U128) : Nat :=
  ∑ price ∈ pool.byGasPrice.keys with minGasPrice ≤ price, (pool.bucket price).length

theorem Mempool.entryCount_eq (pool : Mempool) (minGasPrice : U128) :
    pool.entryCount minGasPrice = (pool.candidates minGasPrice).length := by
  have listed : {price ∈ pool.byGasPrice.keys | minGasPrice ≤ price} =
      (pool.prices minGasPrice).toFinset := by
    ext price
    simp [prices]
  rw [entryCount, listed, List.sum_toFinset _ (pool.prices_nodup minGasPrice), candidates,
    List.length_flatMap]

/-- The transactions are the best ones of the pool in their order, as many as asked for.
The queue has what was added and not removed since, in the order of the additions. -/
structure Selects (queue : List Transaction) (pool : Mempool) (limit : Nat) (minGasPrice : U128)
    (txs : List Transaction) : Prop where
  count : txs.length = min limit (pool.entryCount minGasPrice)
  falling : txs.Pairwise fun first second => second.gasPrice ≤ first.gasPrice
  arrivals : ∀ price, (txs.filter fun tx => tx.gasPrice = price) <+:
    queue.filter fun tx => tx.gasPrice = price
  eligible : ∀ tx ∈ txs, minGasPrice ≤ tx.gasPrice
  leftOut : ∀ hash tx, pool.transactions.lookup hash = some tx → minGasPrice ≤ tx.gasPrice →
    tx ∉ txs → limit ≤ txs.length ∧ ∀ other ∈ txs, tx.gasPrice ≤ other.gasPrice

section Selection
variable {crates : Crates} {maxSize : Nat} {pool : Mempool} {queue : List Transaction}

theorem Represents.selection_eq (rep : Represents crates maxSize pool queue) (minGasPrice : U128) :
    pool.selection minGasPrice =
      Ranking.byKey Transaction.gasPrice (pool.prices minGasPrice) queue := by
  rw [Mempool.selection, Mempool.candidates, List.filterMap_flatMap, Ranking.byKey]
  congr 1
  funext price
  exact rep.bucket_pooled price

theorem Represents.length_selection (rep : Represents crates maxSize pool queue)
    (minGasPrice : U128) :
    (pool.selection minGasPrice).length = pool.entryCount minGasPrice := by
  rw [rep.selection_eq, Ranking.length_byKey, Mempool.entryCount_eq, Mempool.candidates,
    List.length_flatMap]
  simp only [rep.bucket, List.length_map]

theorem Represents.selection_falling (rep : Represents crates maxSize pool queue)
    (minGasPrice : U128) : (pool.selection minGasPrice).Pairwise fun first second =>
      second.gasPrice ≤ first.gasPrice := by
  rw [rep.selection_eq]
  apply Ranking.byKey_pairwise Transaction.gasPrice (pool.prices_descending minGasPrice)
  · intro first _ second _ down
    exact down
  · apply List.pairwise_of_forall
    intro first second same
    rw [same]
    exact BitVec.le_refl _

theorem Represents.mem_selection (rep : Represents crates maxSize pool queue) (minGasPrice : U128)
    {tx : Transaction} :
    tx ∈ pool.selection minGasPrice ↔ tx ∈ queue ∧ minGasPrice ≤ tx.gasPrice := by
  rw [rep.selection_eq, Ranking.mem_byKey]
  apply and_congr_right
  intro member
  exact rep.mem_prices minGasPrice member

/-- What is left out of a cut list comes after all that is in, and the list is full. -/
theorem leftOut_of_take {txs : List Transaction} {limit : Nat}
    {rel : Transaction → Transaction → Prop} (ordered : txs.Pairwise rel) {tx : Transaction}
    (member : tx ∈ txs) (out : tx ∉ txs.take limit) :
    limit ≤ (txs.take limit).length ∧ ∀ other ∈ txs.take limit, rel other tx := by
  have whole := List.take_append_drop limit txs
  rw [← whole] at ordered member
  have later : tx ∈ txs.drop limit := (List.mem_append.mp member).resolve_left out
  constructor
  · have some := List.length_pos_of_mem later
    rw [List.length_drop] at some
    rw [List.length_take]
    omega
  · intro other early
    exact (List.pairwise_append.mp ordered).2.2 other early tx later

theorem Represents.selects (rep : Represents crates maxSize pool queue) {limit : Nat}
    (positive : 1 ≤ limit) (minGasPrice : U128) :
    Selects queue pool limit minGasPrice (pool.getTransactions limit minGasPrice) := by
  rw [Mempool.getTransactions_eq, Nat.max_eq_left positive]
  have falling := rep.selection_falling minGasPrice
  have cut : (pool.selection minGasPrice).take limit <+: pool.selection minGasPrice :=
    List.take_prefix _ _
  constructor
  · rw [List.length_take, rep.length_selection]
  · exact falling.sublist cut.sublist
  · intro price
    apply (cut.filter _).trans
    rw [rep.selection_eq, Ranking.byKey_filter _ (pool.prices_nodup minGasPrice)]
    split
    · exact List.prefix_rfl
    · exact List.nil_prefix
  · intro tx member
    exact ((rep.mem_selection minGasPrice).mp (cut.sublist.subset member)).2
  · intro hash tx pooled pays out
    have member : tx ∈ pool.selection minGasPrice :=
      (rep.mem_selection minGasPrice).mpr ⟨((rep.pooled hash tx).mp pooled).1, pays⟩
    exact leftOut_of_take falling member out

end Selection

/-- In every pool that calls lead to, a selection takes the best entries up to its limit. -/
theorem getTransactions_selects (crates : Crates) (maxSize : Nat) (calls : List PoolCall)
    (apart : Distinguishes crates (submitted calls)) (limit : Nat) (positive : 1 ≤ limit)
    (minGasPrice : U128) :
    let pool := (Runs.run (Mempool.call crates) (Mempool.new maxSize) calls).2
    Selects (queueOf crates maxSize calls) pool limit minGasPrice
      (pool.getTransactions limit minGasPrice) :=
  (run_represents calls (new_represents crates maxSize) apart).selects positive minGasPrice

/-- The better one of two offers, of which the second pays more. -/
theorem getTransactions_selects_sample :
    let pool := (Runs.run (Mempool.call Sample.crates) (Mempool.new 1000)
      (Sample.twoOffers 1 2)).2
    Selects (queueOf Sample.crates 1000 (Sample.twoOffers 1 2)) pool 1 1
      (pool.getTransactions 1 1) :=
  getTransactions_selects Sample.crates 1000 (Sample.twoOffers 1 2) (by decide) 1 (by decide) 1

end ProtonChain.Consensus
