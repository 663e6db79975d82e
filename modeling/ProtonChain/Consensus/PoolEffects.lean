import ProtonChain.Consensus.Mempool
import ProtonChain.Library.FiniteMap
import ProtonChain.Library.Ranking

/-! What the pool operations do to each index, and what a selection takes.

One equation for each index and operation. The selection is the pooled part of
the buckets from the highest price down to the minimum, cut at the limit.
-/

set_option autoImplicit false

namespace ProtonChain.Consensus.Mempool

/-- The sender and the nonce a transaction is indexed under. -/
def nonceKey (tx : Transaction) : Address × U64 := (tx.sender, tx.nonce)

def pooled (pool : Mempool) (hash : Hash) : Option Transaction := pool.transactions.lookup hash

def priceOf (pool : Mempool) (hash : Hash) : Option U128 :=
  (pool.transactions.lookup hash).map Transaction.gasPrice

/-- No bucket is left empty. -/
def Occupied (pool : Mempool) : Prop :=
  ∀ price hashes, pool.byGasPrice.lookup price = some hashes → hashes ≠ []

/-- Every transaction is pooled under its own hash. -/
def Keyed (crates : Crates) (pool : Mempool) : Prop :=
  ∀ hash tx, pool.transactions.lookup hash = some tx → tx.hash crates = hash

/-! ## Addition -/

section Add
variable (crates : Crates) (pool : Mempool) (tx : Transaction)

/-- The pool after an addition that is not refused. -/
def added : Mempool where
  transactions := pool.transactions.insert (tx.hash crates) tx
  byNonce := pool.byNonce.insert (nonceKey tx) (tx.hash crates)
  byGasPrice := pool.byGasPrice.insert tx.gasPrice (pool.bucket tx.gasPrice ++ [tx.hash crates])
  maxSize := pool.maxSize

theorem addTransaction_cases :
    pool.maxSize ≤ pool.size ∧ (pool.addTransaction crates tx).2 = pool ∨
      ¬ pool.maxSize ≤ pool.size ∧ (pool.addTransaction crates tx).2 = pool.added crates tx := by
  unfold addTransaction
  split
  · rename_i full
    exact .inl ⟨full, rfl⟩
  · rename_i room
    exact .inr ⟨room, rfl⟩

@[simp] theorem added_lookup (hash : Hash) :
    (pool.added crates tx).transactions.lookup hash =
      if hash = tx.hash crates then some tx else pool.transactions.lookup hash :=
  FiniteMap.lookup_insert _ _ _ _

@[simp] theorem added_byNonce (key : Address × U64) :
    (pool.added crates tx).byNonce.lookup key =
      if key = nonceKey tx then some (tx.hash crates) else pool.byNonce.lookup key :=
  FiniteMap.lookup_insert _ _ _ _

@[simp] theorem added_bucket (price : U128) :
    (pool.added crates tx).bucket price =
      pool.bucket price ++ if price = tx.gasPrice then [tx.hash crates] else [] := by
  rw [bucket, added, FiniteMap.lookup_insert]
  split
  · rename_i same
    rw [same, Option.getD_some]
  · rw [List.append_nil, bucket]

variable {crates pool} in
theorem Keyed.added (keyed : Keyed crates pool) : Keyed crates (pool.added crates tx) := by
  intro hash pooled found
  rw [added_lookup] at found
  split at found
  · rename_i same
    cases found
    exact same.symm
  · exact keyed hash pooled found

variable {pool} in
theorem Occupied.added (occupied : pool.Occupied) : (pool.added crates tx).Occupied := by
  intro price hashes found
  rw [Mempool.added, FiniteMap.lookup_insert] at found
  split at found
  · cases found
    simp
  · exact occupied price hashes found

end Add

/-! ## Removal -/

section Remove
variable (pool : Mempool) (hash : Hash)

theorem dropFromBucket_bucket (buckets : BTreeMap U128 (List Hash)) (price other : U128) :
    ((dropFromBucket buckets price hash).lookup other).getD [] =
      if other = price then ((buckets.lookup price).getD []).filter (· ≠ hash)
      else (buckets.lookup other).getD [] := by
  unfold dropFromBucket
  split
  · rename_i missing
    split
    · rename_i same
      subst same
      simp [missing]
    · rfl
  · rename_i entry found
    simp only [found, Option.getD_some]
    split
    · rename_i empty
      rw [FiniteMap.lookup_erase]
      split
      · exact (List.isEmpty_iff.mp empty).symm
      · rfl
    · rw [FiniteMap.lookup_insert]
      split
      · rfl
      · rfl

theorem removeTransaction_lookup (other : Hash) :
    (pool.removeTransaction hash).transactions.lookup other =
      if other = hash then none else pool.transactions.lookup other := by
  unfold removeTransaction
  split
  · rename_i missing
    split
    · rename_i same
      rw [same, missing]
    · rfl
  · exact FiniteMap.lookup_erase _ _ _

theorem removeTransaction_byNonce (key : Address × U64) :
    (pool.removeTransaction hash).byNonce.lookup key =
      if ∃ tx, pool.transactions.lookup hash = some tx ∧ nonceKey tx = key then none
      else pool.byNonce.lookup key := by
  unfold removeTransaction
  split
  · rename_i missing
    simp [missing]
  · rename_i tx found
    simp only [found, Option.some.injEq, exists_eq_left', @eq_comm _ _ key]
    exact FiniteMap.lookup_erase pool.byNonce (nonceKey tx) key

theorem removeTransaction_bucket (price : U128) :
    (pool.removeTransaction hash).bucket price =
      (pool.bucket price).filter fun other =>
        ¬ (other = hash ∧ pool.priceOf hash = some price) := by
  unfold removeTransaction
  split
  · rename_i missing
    simp [priceOf, missing]
  · rename_i tx found
    rw [bucket, dropFromBucket_bucket]
    split
    · rename_i same
      subst same
      simp [bucket, priceOf, found]
    · rename_i other
      simp [bucket, priceOf, found, Ne.symm other]

theorem removeTransaction_occupied (occupied : pool.Occupied) :
    (pool.removeTransaction hash).Occupied := by
  intro price hashes found
  unfold removeTransaction at found
  split at found
  · exact occupied price hashes found
  simp only [dropFromBucket] at found
  split at found
  · exact occupied price hashes found
  split at found
  · rw [FiniteMap.lookup_erase] at found
    split at found
    · cases found
    · exact occupied price hashes found
  · rename_i kept
    rw [FiniteMap.lookup_insert] at found
    split at found
    · cases found
      exact fun empty => kept (List.isEmpty_iff.mpr empty)
    · exact occupied price hashes found

variable (hashes : List Hash)

theorem removeTransactions_cons :
    pool.removeTransactions (hash :: hashes) =
      (pool.removeTransaction hash).removeTransactions hashes := rfl

@[simp] theorem removeTransactions_lookup (other : Hash) :
    (pool.removeTransactions hashes).transactions.lookup other =
      if other ∈ hashes then none else pool.transactions.lookup other := by
  induction hashes generalizing pool with
  | nil => rfl
  | cons hash rest ih =>
    rw [removeTransactions_cons, ih, removeTransaction_lookup]
    by_cases same : other = hash
    · simp [same]
    · simp [same]

theorem removeTransactions_byNonce (key : Address × U64) :
    (pool.removeTransactions hashes).byNonce.lookup key =
      if ∃ hash ∈ hashes, ∃ tx, pool.transactions.lookup hash = some tx ∧ nonceKey tx = key
      then none else pool.byNonce.lookup key := by
  induction hashes generalizing pool with
  | nil => simp [removeTransactions]
  | cons hash rest ih =>
    rw [removeTransactions_cons, ih, removeTransaction_byNonce]
    by_cases now : ∃ tx, pool.transactions.lookup hash = some tx ∧ nonceKey tx = key
    · have listed : ∃ other ∈ hash :: rest, ∃ tx,
          pool.transactions.lookup other = some tx ∧ nonceKey tx = key :=
        ⟨hash, List.mem_cons_self, now⟩
      rw [if_pos now, if_pos listed, ite_self]
    · -- the head removes no entry of the key, so the rest meets the same ones
      have later : (∃ other ∈ rest, ∃ tx, (pool.removeTransaction hash).transactions.lookup other =
          some tx ∧ nonceKey tx = key) ↔
          ∃ other ∈ hash :: rest, ∃ tx,
            pool.transactions.lookup other = some tx ∧ nonceKey tx = key := by
        constructor
        · rintro ⟨other, member, tx, found, same⟩
          rw [removeTransaction_lookup] at found
          split at found
          · cases found
          · exact ⟨other, List.mem_cons_of_mem _ member, tx, found, same⟩
        · rintro ⟨other, member, tx, found, same⟩
          rcases List.mem_cons.mp member with rfl | inRest
          · exact absurd ⟨tx, found, same⟩ now
          · refine ⟨other, inRest, tx, ?_, same⟩
            have apart : other ≠ hash := fun equal => now ⟨tx, equal ▸ found, same⟩
            rw [removeTransaction_lookup, if_neg apart, found]
      simp only [later, now, if_false]

@[simp] theorem removeTransactions_bucket (price : U128) :
    (pool.removeTransactions hashes).bucket price =
      (pool.bucket price).filter fun other =>
        ¬ (other ∈ hashes ∧ pool.priceOf other = some price) := by
  induction hashes generalizing pool with
  | nil => simp [removeTransactions]
  | cons hash rest ih =>
    rw [removeTransactions_cons, ih, removeTransaction_bucket, List.filter_filter]
    refine List.filter_congr fun other _ => ?_
    rw [priceOf, removeTransaction_lookup]
    by_cases same : other = hash
    · subst same
      simp
    · simp [same, priceOf]

theorem removeTransaction_maxSize : (pool.removeTransaction hash).maxSize = pool.maxSize := by
  unfold removeTransaction
  split
  · rfl
  · rfl

theorem removeTransactions_maxSize : (pool.removeTransactions hashes).maxSize = pool.maxSize := by
  induction hashes generalizing pool with
  | nil => rfl
  | cons hash rest ih => rw [removeTransactions_cons, ih, removeTransaction_maxSize]

variable {pool} in
theorem Occupied.removed (occupied : pool.Occupied) :
    (pool.removeTransactions hashes).Occupied := by
  induction hashes generalizing pool with
  | nil => exact occupied
  | cons hash rest ih => exact ih (removeTransaction_occupied pool hash occupied)

variable {pool} in
theorem Keyed.removed {crates : Crates} (keyed : Keyed crates pool) :
    Keyed crates (pool.removeTransactions hashes) := by
  intro hash tx found
  rw [removeTransactions_lookup] at found
  split at found
  · cases found
  · exact keyed hash tx found

end Remove

/-! ## Selection -/

section Selection
variable (pool : Mempool) (minGasPrice : U128)

def prices : List U128 :=
  (pool.byGasPrice.keys.sort Descending).filter fun price => minGasPrice ≤ price

def candidates : List Hash := (pool.prices minGasPrice).flatMap pool.bucket

/-- What a selection without a limit takes. -/
def selection : List Transaction :=
  (pool.candidates minGasPrice).filterMap pool.pooled

theorem prices_nodup : (pool.prices minGasPrice).Nodup := (Finset.sort_nodup _ _).filter _

theorem prices_descending : (pool.prices minGasPrice).Pairwise Descending :=
  (Finset.pairwise_sort _ _).filter _

theorem mem_prices {price : U128} :
    price ∈ pool.prices minGasPrice ↔ price ∈ pool.byGasPrice ∧ minGasPrice ≤ price := by
  simp [prices, Finmap.mem_keys]

theorem indexed_of_bucket {price : U128} {hash : Hash} (member : hash ∈ pool.bucket price) :
    price ∈ pool.byGasPrice := by
  rw [bucket] at member
  cases found : pool.byGasPrice.lookup price with
  | none => simp [found] at member
  | some hashes => exact Finmap.mem_of_lookup_eq_some found

theorem mem_candidates {hash : Hash} :
    hash ∈ pool.candidates minGasPrice ↔
      ∃ price, minGasPrice ≤ price ∧ hash ∈ pool.bucket price := by
  simp only [candidates, List.mem_flatMap, mem_prices]
  constructor
  · rintro ⟨price, ⟨_, above⟩, member⟩
    exact ⟨price, above, member⟩
  · rintro ⟨price, above, member⟩
    exact ⟨price, ⟨pool.indexed_of_bucket member, above⟩, member⟩

variable (limit : Nat)

/-- One bucket adds its pooled part and stops once the limit is reached; the
result so far is below it. -/
theorem takeBucket_eq (hashes : List Hash) (result : List Transaction)
    (short : result.length < max limit 1) :
    pool.takeBucket limit hashes result =
      ((result ++ hashes.filterMap pool.pooled).take (max limit 1),
        decide (max limit 1 ≤ (result ++ hashes.filterMap pool.pooled).length)) := by
  induction hashes generalizing result with
  | nil =>
    rw [takeBucket, List.filterMap_nil, List.append_nil, List.take_of_length_le (by omega),
      decide_eq_false (by omega)]
  | cons hash rest ih =>
    rw [takeBucket]
    cases found : pool.transactions.lookup hash with
    | none =>
      have gone : pool.pooled hash = none := found
      rw [List.filterMap_cons_none gone]
      exact ih result short
    | some tx =>
      have here : pool.pooled hash = some tx := found
      have pushed : result ++ (hash :: rest).filterMap pool.pooled =
          (result ++ [tx]) ++ rest.filterMap pool.pooled := by
        rw [List.filterMap_cons_some here, List.append_assoc, List.singleton_append]
      have length : (result ++ [tx]).length = result.length + 1 := List.length_append
      rw [pushed]
      simp only []
      split
      · -- the limit is met by this push, also if it is zero
        have full : (result ++ [tx]).length = max limit 1 := by omega
        have long : (result ++ [tx]).length ≤
            (result ++ [tx] ++ rest.filterMap pool.pooled).length := by
          exact (List.prefix_append _ _).length_le
        rw [← full, List.take_left, decide_eq_true long]
      · exact ih (result ++ [tx]) (by omega)

theorem takeBuckets_eq (buckets : List (U128 × List Hash)) (result : List Transaction)
    (short : result.length < max limit 1) :
    pool.takeBuckets limit minGasPrice buckets result =
      (result ++ ((buckets.takeWhile fun entry => minGasPrice ≤ entry.1).flatMap
        Prod.snd).filterMap pool.pooled).take (max limit 1) := by
  induction buckets generalizing result with
  | nil =>
    rw [takeBuckets, List.takeWhile_nil, List.flatMap_nil, List.filterMap_nil, List.append_nil,
      List.take_of_length_le (by omega)]
  | cons entry rest ih =>
    obtain ⟨price, hashes⟩ := entry
    rw [takeBuckets]
    split
    · rename_i low
      rw [List.takeWhile_cons_of_neg (by simpa using low), List.flatMap_nil, List.filterMap_nil,
        List.append_nil, List.take_of_length_le (by omega)]
    · rename_i high
      rw [List.takeWhile_cons_of_pos (by simpa using high), List.flatMap_cons,
        List.filterMap_append, ← List.append_assoc, takeBucket_eq pool limit hashes result short]
      -- either this bucket meets the limit, or the rest goes on from its result
      by_cases full : max limit 1 ≤
          (result ++ hashes.filterMap pool.pooled).length
      · simp only [full, decide_true]
        rw [List.take_append_of_le_length full]
      · simp only [full, decide_false]
        rw [List.take_of_length_le (by omega)]
        exact ih _ (by omega)

theorem getTransactions_eq : pool.getTransactions limit minGasPrice =
    (pool.selection minGasPrice).take (max limit 1) := by
  have down : (pool.byGasPrice.keys.sort Descending).Pairwise fun first second =>
      decide (minGasPrice ≤ second) = true → decide (minGasPrice ≤ first) = true := by
    refine (Finset.pairwise_sort _ _).imp fun {first second} ahead above => ?_
    exact decide_eq_true (BitVec.le_trans (of_decide_eq_true above) ahead)
  rw [getTransactions, takeBuckets_eq pool minGasPrice limit _ _ (by simp), List.nil_append,
    buckets, List.takeWhile_map, List.flatMap_map, selection, candidates, prices,
    ← Ranking.takeWhile_eq_filter _ _ down]
  rfl

/-- Given the indexed prices in falling order, a selection goes through their buckets. -/
theorem selection_listed (listed : List U128) (keys : pool.byGasPrice.keys = listed.toFinset)
    (distinct : listed.Nodup) (falling : listed.Pairwise Descending)
    (above : ∀ price ∈ listed, minGasPrice ≤ price) :
    pool.selection minGasPrice = (listed.flatMap pool.bucket).filterMap pool.pooled := by
  have sorted : pool.byGasPrice.keys.sort Descending = listed := by
    rw [keys]
    exact (List.toFinset_sort Descending distinct).mpr falling
  rw [selection, candidates, prices, sorted,
    List.filter_eq_self.mpr fun price member => decide_eq_true (above price member)]

theorem mem_selection {tx : Transaction} :
    tx ∈ pool.selection minGasPrice ↔
      ∃ hash price, minGasPrice ≤ price ∧ hash ∈ pool.bucket price ∧
        pool.transactions.lookup hash = some tx := by
  simp only [selection, List.mem_filterMap, mem_candidates]
  constructor
  · rintro ⟨hash, ⟨price, above, member⟩, found⟩
    exact ⟨hash, price, above, member, found⟩
  · rintro ⟨hash, price, above, member, found⟩
    exact ⟨hash, ⟨price, above, member⟩, found⟩

end Selection

end ProtonChain.Consensus.Mempool
