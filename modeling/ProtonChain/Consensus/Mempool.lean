import ProtonChain.Types
import Mathlib.Data.Finset.Sort

/-! The mempool: the pooled transactions with a nonce index and a gas price index.

The three maps are written one after another under their own keys, so none of
them is derived from another.
-/

set_option autoImplicit false

namespace ProtonChain.Consensus

structure Mempool where
  transactions : HashMap Hash Transaction
  byNonce : BTreeMap (Address × U64) Hash
  byGasPrice : BTreeMap U128 (List Hash)
  maxSize : Nat

def Descending (first second : U128) : Prop := second ≤ first

instance : DecidableRel Descending := fun first second =>
  inferInstanceAs (Decidable (second ≤ first))

instance : IsTrans U128 Descending := ⟨fun _ _ _ first second => BitVec.le_trans second first⟩

instance : Std.Antisymm Descending := ⟨fun _ _ first second => BitVec.le_antisymm second first⟩

instance : Std.Total Descending := ⟨fun first second => BitVec.le_total second first⟩

namespace Mempool

def new (maxSize : Nat) : Mempool := ⟨∅, ∅, ∅, maxSize⟩

def size (pool : Mempool) : Nat := pool.transactions.keys.card

def addTransaction (crates : Crates) (pool : Mempool) (tx : Transaction) :
    Except String Unit × Mempool :=
  if pool.maxSize ≤ pool.size then (.error "Mempool full", pool)
  else
    let hash := tx.hash crates
    let bucket := (pool.byGasPrice.lookup tx.gasPrice).getD []
    (.ok (),
      { pool with
        transactions := pool.transactions.insert hash tx
        byNonce := pool.byNonce.insert (tx.sender, tx.nonce) hash
        byGasPrice := pool.byGasPrice.insert tx.gasPrice (bucket ++ [hash]) })

/-- `entry.retain(|h| h != hash)`, and the entry goes when it is empty. -/
def dropFromBucket (buckets : BTreeMap U128 (List Hash)) (price : U128) (hash : Hash) :
    BTreeMap U128 (List Hash) :=
  match buckets.lookup price with
  | none => buckets
  | some entry =>
    let kept := entry.filter (· ≠ hash)
    if kept.isEmpty then buckets.erase price else buckets.insert price kept

def removeTransaction (pool : Mempool) (hash : Hash) : Mempool :=
  match pool.transactions.lookup hash with
  | none => pool
  | some tx =>
    { pool with
      transactions := pool.transactions.erase hash
      byNonce := pool.byNonce.erase (tx.sender, tx.nonce)
      byGasPrice := dropFromBucket pool.byGasPrice tx.gasPrice hash }

def removeTransactions (pool : Mempool) (hashes : List Hash) : Mempool :=
  hashes.foldl removeTransaction pool

def bucket (pool : Mempool) (price : U128) : List Hash :=
  (pool.byGasPrice.lookup price).getD []

def buckets (pool : Mempool) : List (U128 × List Hash) :=
  (pool.byGasPrice.keys.sort Descending).map fun price => (price, pool.bucket price)

/-- The loop over one bucket; the flag says that it returned at the limit. -/
def takeBucket (pool : Mempool) (limit : Nat) :
    List Hash → List Transaction → List Transaction × Bool
  | [], result => (result, false)
  | hash :: rest, result =>
    match pool.transactions.lookup hash with
    | none => takeBucket pool limit rest result
    | some tx =>
      -- the length is tested after the push, so a limit of zero still takes one
      if limit ≤ (result ++ [tx]).length then (result ++ [tx], true)
      else takeBucket pool limit rest (result ++ [tx])

def takeBuckets (pool : Mempool) (limit : Nat) (minGasPrice : U128) :
    List (U128 × List Hash) → List Transaction → List Transaction
  | [], result => result
  | (price, hashes) :: rest, result =>
    if price < minGasPrice then result
    else
      match takeBucket pool limit hashes result with
      | (result, true) => result
      | (result, false) => takeBuckets pool limit minGasPrice rest result

def getTransactions (pool : Mempool) (limit : Nat) (minGasPrice : U128) : List Transaction :=
  takeBuckets pool limit minGasPrice pool.buckets []

end Mempool

/-! ## Calls -/

inductive PoolCall where
  | add (tx : Transaction)
  | remove (hashes : List Hash)

def Mempool.call (crates : Crates) (pool : Mempool) : PoolCall → Except String Unit × Mempool
  | .add tx => pool.addTransaction crates tx
  | .remove hashes => (.ok (), pool.removeTransactions hashes)

end ProtonChain.Consensus
