import ProtonChain.Consensus.Finality
import ProtonChain.Consensus.PoolEffects

/-! The two indexes of the pool along runs.

The price index is written again for a hash that is pooled already, and a
removal takes the nonce entry away from whoever holds it now. Each law is kept
by a run exactly if no call meets the case it does not look at.
-/

set_option autoImplicit false

namespace ProtonChain.Consensus

/-! ## The price index -/

/-- Every pooled hash is indexed once, under its own price, and nothing else is. -/
structure IndexExact (pool : Mempool) : Prop where
  once : ∀ hash tx, pool.transactions.lookup hash = some tx → ∀ price,
    (pool.bucket price).count hash = if price = tx.gasPrice then 1 else 0
  pooled : ∀ price, ∀ hash ∈ pool.bucket price, hash ∈ pool.transactions
  occupied : pool.Occupied

/-- No selection and no proposal has a transaction twice. -/
structure SelectsOnce (crates : Crates) (pool : Mempool) : Prop where
  selections : ∀ limit minGasPrice, (pool.getTransactions limit minGasPrice).Nodup
  proposals : ∀ (node : HotStuffConsensus) prevHash timestamp block, node.mempool = pool →
    node.proposeBlock crates prevHash timestamp = some block → block.transactions.Nodup

/-- An addition is refused or brings a new hash. -/
def Fresh (crates : Crates) (pool : Mempool) : PoolCall → Prop
  | .add tx => pool.maxSize ≤ pool.size ∨ tx.hash crates ∉ pool.transactions
  | .remove _ => True

section Price
variable {crates : Crates} {pool : Mempool}

theorem IndexExact.price_eq (exact : IndexExact pool) {hash : Hash} {price : U128}
    (member : hash ∈ pool.bucket price) : pool.priceOf hash = some price := by
  obtain ⟨tx, found⟩ := Option.isSome_iff_exists.mp
    (Finmap.lookup_isSome.mpr (exact.pooled price hash member))
  have counted := exact.once hash tx found price
  have positive := List.count_pos_iff.mpr member
  rw [Mempool.priceOf, found, Option.map_some]
  split at counted
  · rename_i same
    rw [same]
  · omega

theorem added_indexExact (exact : IndexExact pool) {tx : Transaction}
    (fresh : tx.hash crates ∉ pool.transactions) : IndexExact (pool.added crates tx) where
  once hash other found price := by
    rw [Mempool.added_lookup] at found
    rw [Mempool.added_bucket, List.count_append]
    split at found
    · rename_i same
      cases found
      have absent : (pool.bucket price).count hash = 0 :=
        List.count_eq_zero.mpr fun member => fresh (same ▸ exact.pooled price hash member)
      rw [absent, Nat.zero_add]
      split
      · rw [same, List.count_singleton_self]
      · rfl
    · rename_i apart
      have other : (if price = tx.gasPrice then [tx.hash crates] else []).count hash = 0 := by
        refine List.count_eq_zero.mpr fun member => apart ?_
        split at member
        · exact List.mem_singleton.mp member
        · cases member
      rw [other, Nat.add_zero]
      exact exact.once hash _ found price
  pooled price hash member := by
    rw [Mempool.added_bucket, List.mem_append] at member
    refine Finmap.mem_insert.mpr ?_
    rcases member with old | new
    · exact .inr (exact.pooled price hash old)
    · split at new
      · exact .inl (List.mem_singleton.mp new)
      · cases new
  occupied := exact.occupied.added crates tx

/-- A hash that is pooled already stands in its bucket before it is pushed once more. -/
theorem fresh_of_added (exact : IndexExact pool) {tx : Transaction}
    (after : IndexExact (pool.added crates tx)) : tx.hash crates ∉ pool.transactions := by
  intro member
  obtain ⟨old, found⟩ := Option.isSome_iff_exists.mp (Finmap.lookup_isSome.mpr member)
  have before := exact.once _ old found old.gasPrice
  rw [if_pos rfl] at before
  have counted := after.once (tx.hash crates) tx (by simp) old.gasPrice
  rw [Mempool.added_bucket, List.count_append, before] at counted
  split at counted
  · rw [List.count_singleton_self] at counted
    omega
  · rw [List.count_nil] at counted
    omega

theorem removed_indexExact (exact : IndexExact pool) (hashes : List Hash) :
    IndexExact (pool.removeTransactions hashes) where
  once hash tx found price := by
    rw [Mempool.removeTransactions_lookup] at found
    split at found
    · cases found
    · rename_i kept
      rw [Mempool.removeTransactions_bucket, List.count_filter (by simp [kept])]
      exact exact.once hash tx found price
  pooled price hash member := by
    rw [Mempool.removeTransactions_bucket, List.mem_filter, decide_eq_true_eq] at member
    have kept : hash ∉ hashes := fun listed => member.2 ⟨listed, exact.price_eq member.1⟩
    rw [← Finmap.lookup_isSome, Mempool.removeTransactions_lookup, if_neg kept,
      Finmap.lookup_isSome]
    exact exact.pooled price hash member.1
  occupied := exact.occupied.removed hashes

theorem selection_nodup (exact : IndexExact pool) (keyed : pool.Keyed crates)
    (minGasPrice : U128) : (pool.selection minGasPrice).Nodup := by
  have candidates : (pool.candidates minGasPrice).Nodup := by
    refine List.nodup_flatMap.mpr ⟨fun price _ => ?_, ?_⟩
    · refine List.nodup_iff_count_eq_one.mpr fun hash member => ?_
      have price_eq := exact.price_eq member
      obtain ⟨tx, found, same⟩ := Option.map_eq_some_iff.mp price_eq
      rw [exact.once hash tx found price, if_pos same.symm]
    · refine (pool.prices_nodup minGasPrice).imp fun {price other} apart hash first second => ?_
      exact apart (Option.some.inj ((exact.price_eq first).symm.trans (exact.price_eq second)))
  -- different hashes hold different transactions, because each is pooled under its own
  refine candidates.filterMap fun hash other tx first second => ?_
  rw [← keyed hash tx first, ← keyed other tx second]

theorem IndexExact.selectsOnce (exact : IndexExact pool) (keyed : pool.Keyed crates) :
    SelectsOnce crates pool := by
  have selections : ∀ limit minGasPrice, (pool.getTransactions limit minGasPrice).Nodup := by
    intro limit minGasPrice
    rw [Mempool.getTransactions_eq]
    exact (selection_nodup exact keyed minGasPrice).sublist (List.take_sublist _ _)
  refine ⟨selections, fun node prevHash timestamp block same proposed => ?_⟩
  rw [← (HotStuffConsensus.proposeBlock_eq_some crates proposed).selection, same]
  exact selections _ _

theorem call_indexExact_iff (exact : IndexExact pool) (call : PoolCall) :
    IndexExact (pool.call crates call).2 ↔ Fresh crates pool call := by
  cases call with
  | add tx =>
    rcases Mempool.addTransaction_cases crates pool tx with ⟨full, same⟩ | ⟨room, same⟩
    · rw [Mempool.call, same]
      exact iff_of_true exact (.inl full)
    · rw [Mempool.call, same]
      simp only [Fresh, room, false_or]
      exact ⟨fresh_of_added exact, added_indexExact exact⟩
  | remove hashes => exact iff_of_true (removed_indexExact exact hashes) trivial

end Price

theorem call_keyed {crates : Crates} {pool : Mempool} (keyed : pool.Keyed crates)
    (call : PoolCall) : (pool.call crates call).2.Keyed crates := by
  cases call with
  | add tx =>
    rcases Mempool.addTransaction_cases crates pool tx with ⟨-, same⟩ | ⟨-, same⟩
    · rw [Mempool.call, same]
      exact keyed
    · rw [Mempool.call, same]
      exact keyed.added tx
  | remove hashes => exact keyed.removed hashes

theorem new_indexExact (maxSize : Nat) : IndexExact (Mempool.new maxSize) where
  once hash tx found := by cases found
  pooled price hash member := by cases member
  occupied price hashes found := by cases found

theorem new_keyed (crates : Crates) (maxSize : Nat) : (Mempool.new maxSize).Keyed crates := by
  intro hash tx found
  cases found

/-- Along a run from the empty pool the price index stays exact, and selections stay
free of repetitions with it, exactly if no pooled hash is added again. -/
theorem priceIndex_iff (crates : Crates) (maxSize : Nat) (calls : List PoolCall) :
    Runs.Visits (Mempool.call crates) (fun pool => IndexExact pool ∧ SelectsOnce crates pool)
        (Mempool.new maxSize) calls ↔
      Runs.Meets (Mempool.call crates) (Fresh crates) (Mempool.new maxSize) calls := by
  have keep : ∀ (pool : Mempool) (call : PoolCall), IndexExact pool ∧ pool.Keyed crates →
      Fresh crates pool call →
        IndexExact (pool.call crates call).2 ∧ (pool.call crates call).2.Keyed crates :=
    fun _ call now fresh => ⟨(call_indexExact_iff now.1 call).mpr fresh, call_keyed now.2 call⟩
  exact Runs.visits_iff_meets_of_stronger _ (fun _ now => ⟨now.1, now.1.selectsOnce now.2⟩) keep
    (fun _ call now after => (call_indexExact_iff now.1 call).mp after.1)
    ⟨new_indexExact maxSize, new_keyed crates maxSize⟩ calls

/-! ## The nonce index -/

/-- The keys of the index are those of the pooled transactions, and each leads to one of these. -/
structure NonceAgrees (pool : Mempool) : Prop where
  present : ∀ key, key ∈ pool.byNonce ↔
    ∃ hash tx, pool.transactions.lookup hash = some tx ∧ Mempool.nonceKey tx = key
  owned : ∀ key hash, pool.byNonce.lookup key = some hash →
    ∃ tx, pool.transactions.lookup hash = some tx ∧ Mempool.nonceKey tx = key

/-- A removal names all pooled transactions of a sender and nonce or none. An addition
is refused, or replaces under its hash no transaction whose key still leads there. -/
def KeysApart (crates : Crates) (pool : Mempool) : PoolCall → Prop
  | .add tx => pool.maxSize ≤ pool.size ∨
      ∀ old, pool.transactions.lookup (tx.hash crates) = some old →
        pool.byNonce.lookup (Mempool.nonceKey old) = some (tx.hash crates) →
          Mempool.nonceKey old = Mempool.nonceKey tx
  | .remove hashes => ∀ hash ∈ hashes, ∀ tx, pool.transactions.lookup hash = some tx →
      ∀ other kept, pool.transactions.lookup other = some kept →
        Mempool.nonceKey kept = Mempool.nonceKey tx → other ∈ hashes

section Nonce
variable {crates : Crates} {pool : Mempool}

theorem mem_byNonce {key : Address × U64} :
    key ∈ pool.byNonce ↔ ∃ hash, pool.byNonce.lookup key = some hash := by
  rw [← Finmap.lookup_isSome, Option.isSome_iff_exists]

theorem NonceAgrees.indexed (agrees : NonceAgrees pool) {hash : Hash} {tx : Transaction}
    (found : pool.transactions.lookup hash = some tx) :
    ∃ owner, pool.byNonce.lookup (Mempool.nonceKey tx) = some owner :=
  mem_byNonce.mp ((agrees.present _).mpr ⟨hash, tx, found, rfl⟩)

theorem added_nonceAgrees (agrees : NonceAgrees pool) {tx : Transaction}
    (apart : ∀ old, pool.transactions.lookup (tx.hash crates) = some old →
      pool.byNonce.lookup (Mempool.nonceKey old) = some (tx.hash crates) →
        Mempool.nonceKey old = Mempool.nonceKey tx) : NonceAgrees (pool.added crates tx) := by
  have owned : ∀ key hash, (pool.added crates tx).byNonce.lookup key = some hash →
      ∃ other, (pool.added crates tx).transactions.lookup hash = some other ∧
        Mempool.nonceKey other = key := by
    intro key hash found
    rw [Mempool.added_byNonce] at found
    rw [Mempool.added_lookup]
    split at found
    · rename_i same
      cases found
      exact ⟨tx, if_pos rfl, same.symm⟩
    · rename_i differ
      obtain ⟨old, stored, key_eq⟩ := agrees.owned key hash found
      have kept : hash ≠ tx.hash crates := by
        rintro rfl
        exact differ (key_eq.symm.trans (apart old stored (key_eq ▸ found)))
      exact ⟨old, (if_neg kept).trans stored, key_eq⟩
  refine ⟨fun key => ⟨fun member => ?_, ?_⟩, owned⟩
  · obtain ⟨hash, found⟩ := mem_byNonce.mp member
    exact ⟨hash, owned key hash found⟩
  · rintro ⟨hash, other, stored, rfl⟩
    rw [Mempool.added_lookup] at stored
    refine Finmap.mem_insert.mpr ?_
    split at stored
    · cases stored
      exact .inl rfl
    · exact .inr (mem_byNonce.mpr (agrees.indexed stored))

theorem apart_of_added {tx : Transaction} (after : NonceAgrees (pool.added crates tx))
    {old : Transaction}
    (leads : pool.byNonce.lookup (Mempool.nonceKey old) = some (tx.hash crates)) :
    Mempool.nonceKey old = Mempool.nonceKey tx := by
  by_contra differ
  obtain ⟨owner, stored, same⟩ := after.owned (Mempool.nonceKey old) (tx.hash crates)
    (by rw [Mempool.added_byNonce, if_neg differ, leads])
  rw [Mempool.added_lookup, if_pos rfl, Option.some.injEq] at stored
  exact differ (stored ▸ same.symm)

theorem removed_nonceAgrees (agrees : NonceAgrees pool) {hashes : List Hash}
    (apart : KeysApart crates pool (.remove hashes)) :
    NonceAgrees (pool.removeTransactions hashes) := by
  have owned : ∀ key hash, (pool.removeTransactions hashes).byNonce.lookup key = some hash →
      ∃ tx, (pool.removeTransactions hashes).transactions.lookup hash = some tx ∧
        Mempool.nonceKey tx = key := by
    intro key hash found
    rw [Mempool.removeTransactions_byNonce] at found
    split at found
    · cases found
    · rename_i untouched
      obtain ⟨tx, stored, same⟩ := agrees.owned key hash found
      have kept : hash ∉ hashes := fun listed => untouched ⟨hash, listed, tx, stored, same⟩
      exact ⟨tx, by rw [Mempool.removeTransactions_lookup, if_neg kept, stored], same⟩
  refine ⟨fun key => ⟨fun member => ?_, ?_⟩, owned⟩
  · obtain ⟨hash, found⟩ := mem_byNonce.mp member
    exact ⟨hash, owned key hash found⟩
  · rintro ⟨hash, tx, stored, rfl⟩
    rw [Mempool.removeTransactions_lookup] at stored
    split at stored
    · cases stored
    · rename_i kept
      -- no listed transaction has the key, or this one would be listed with it
      have untouched : ¬ ∃ listed ∈ hashes, ∃ gone,
          pool.transactions.lookup listed = some gone ∧
            Mempool.nonceKey gone = Mempool.nonceKey tx := by
        rintro ⟨listed, member, gone, found, equal⟩
        exact kept (apart listed member gone found hash tx stored equal.symm)
      obtain ⟨owner, leads⟩ := agrees.indexed stored
      exact mem_byNonce.mpr
        ⟨owner, by rw [Mempool.removeTransactions_byNonce, if_neg untouched, leads]⟩

theorem apart_of_removed {hashes : List Hash}
    (after : NonceAgrees (pool.removeTransactions hashes)) :
    KeysApart crates pool (.remove hashes) := by
  intro hash member tx stored other kept found same
  by_contra unlisted
  have present := (after.present (Mempool.nonceKey tx)).mpr
    ⟨other, kept, by rw [Mempool.removeTransactions_lookup, if_neg unlisted, found], same⟩
  obtain ⟨owner, leads⟩ := mem_byNonce.mp present
  rw [Mempool.removeTransactions_byNonce, if_pos ⟨hash, member, tx, stored, rfl⟩] at leads
  cases leads

theorem call_nonceAgrees_iff (agrees : NonceAgrees pool) (call : PoolCall) :
    NonceAgrees (pool.call crates call).2 ↔ KeysApart crates pool call := by
  cases call with
  | add tx =>
    rcases Mempool.addTransaction_cases crates pool tx with ⟨full, same⟩ | ⟨room, same⟩
    · rw [Mempool.call, same]
      exact iff_of_true agrees (.inl full)
    · rw [Mempool.call, same]
      simp only [KeysApart, room, false_or]
      exact ⟨fun after old _ leads => apart_of_added after leads, added_nonceAgrees agrees⟩
  | remove hashes => exact ⟨apart_of_removed, removed_nonceAgrees agrees⟩

end Nonce

theorem new_nonceAgrees (maxSize : Nat) : NonceAgrees (Mempool.new maxSize) where
  present key := iff_of_false Finmap.notMem_empty (by rintro ⟨hash, tx, found, -⟩; cases found)
  owned key hash found := by cases found

/-- Along a run from the empty pool the nonce index agrees exactly if no removal parts
transactions of one sender and nonce, and no hash is taken over from another key. -/
theorem nonceIndex_iff (crates : Crates) (maxSize : Nat) (calls : List PoolCall) :
    Runs.Visits (Mempool.call crates) NonceAgrees (Mempool.new maxSize) calls ↔
      Runs.Meets (Mempool.call crates) (KeysApart crates) (Mempool.new maxSize) calls := by
  have exact : ∀ (pool : Mempool) (call : PoolCall), NonceAgrees pool →
      (NonceAgrees (pool.call crates call).2 ↔ KeysApart crates pool call) :=
    fun _ call agrees => call_nonceAgrees_iff agrees call
  exact Runs.visits_iff_meets_of_exact _ exact (new_nonceAgrees maxSize) calls

namespace Sample

def offer (kind : TransactionType) (nonce : U64) (gasPrice : U128) : Transaction where
  txType := kind
  nonce := nonce
  sender := Sample.address 1
  receiver := some (Sample.address 2)
  value := 100
  gasPrice := gasPrice
  gasLimit := 21000
  data := []
  shardId := 0
  timestamp := 0
  signature := []
  stealthAddress := none
  zkProof := none
  encryptedAmount := none

end Sample

/-- A transaction that is submitted twice is selected twice. -/
theorem resubmission_selected_twice :
    let tx := Sample.offer .transfer 1 10
    let calls := [PoolCall.add tx, PoolCall.add tx]
    (Runs.run (Mempool.call Sample.crates) (Mempool.new 1000) calls).2.getTransactions 10 1 =
        [tx, tx] ∧
      ¬ Runs.Visits (Mempool.call Sample.crates)
        (fun pool => IndexExact pool ∧ SelectsOnce Sample.crates pool) (Mempool.new 1000)
        calls := by
  intro tx calls
  have twice : (Runs.run (Mempool.call Sample.crates) (Mempool.new 1000) calls).2.getTransactions
      10 1 = [tx, tx] := by
    rw [Mempool.getTransactions_eq, Mempool.selection_listed _ 1 [10] (by decide) (by decide)
      (by decide) (by simp)]
    decide
  refine ⟨twice, fun visits => ?_⟩
  have once := (visits calls [] (List.append_nil _).symm).2.selections 10 1
  rw [twice] at once
  exact absurd once (by decide)

/-- Two transactions of one sender and nonce; the removal of the first takes the
index entry of the second. -/
theorem removal_unindexes_other :
    let first := Sample.offer .transfer 1 10
    let second := Sample.offer .stake 1 10
    let calls := [PoolCall.add first, PoolCall.add second, PoolCall.remove
      [first.hash Sample.crates]]
    let final := (Runs.run (Mempool.call Sample.crates) (Mempool.new 1000) calls).2
    final.transactions.lookup (second.hash Sample.crates) = some second ∧
      final.byNonce.lookup (Mempool.nonceKey second) = none ∧
      ¬ Runs.Visits (Mempool.call Sample.crates) NonceAgrees (Mempool.new 1000) calls := by
  intro first second calls final
  have pooled : final.transactions.lookup (second.hash Sample.crates) = some second := by decide
  have absent : final.byNonce.lookup (Mempool.nonceKey second) = none := by decide
  refine ⟨pooled, absent, fun visits => ?_⟩
  have agrees : NonceAgrees final := visits calls [] (List.append_nil _).symm
  obtain ⟨owner, found⟩ := agrees.indexed pooled
  rw [absent] at found
  cases found

end ProtonChain.Consensus
