import ProtonChain.Bincode
import ProtonChain.Library.Lru
import ProtonChain.Storage.Database

/-! State storage: a database, a cache of accounts in front of it and the changes
that wait for a commit.

The cache and the serializer are third-party. The cache is known by its documented
operations, the serializer by what it returns.
-/

set_option autoImplicit false

namespace ProtonChain.Storage

/-- `lru::LruCache` as the storage calls it. The entries are iterated from the most
recently used one. -/
structure LruCrate (K V : Type) where
  LruCache : Type
  new : Nat → LruCache
  get : LruCache → K → Option V × LruCache
  put : LruCache → K → V → LruCache
  iter : LruCache → List (K × V)
  cap : LruCache → Nat

namespace LruCrate

/-- What the documentation of the cache promises. -/
structure Documented {K V : Type} [DecidableEq K] (lru : LruCrate K V) : Prop where
  iter_new : ∀ capacity, lru.iter (lru.new capacity) = []
  cap_new : ∀ capacity, lru.cap (lru.new capacity) = capacity
  distinct : ∀ cache, Lru.Distinct (lru.iter cache)
  bounded : ∀ cache, (lru.iter cache).length ≤ lru.cap cache
  get_value : ∀ cache key, (lru.get cache key).1 = (lru.iter cache).lookup key
  iter_get : ∀ cache key, lru.iter (lru.get cache key).2 = (Lru.get (lru.iter cache) key).2
  cap_get : ∀ cache key, lru.cap (lru.get cache key).2 = lru.cap cache
  iter_put : ∀ cache key value,
    lru.iter (lru.put cache key value) = Lru.put (lru.cap cache) (lru.iter cache) key value
  cap_put : ∀ cache key value, lru.cap (lru.put cache key value) = lru.cap cache

end LruCrate

/-- The third-party functions of the storage. -/
structure StorageCrates extends Crates where
  lru : LruCrate Hash Account
  account : Serde Account
  block : Serde Block
  transaction : Serde Transaction

structure StateStorage (crates : StorageCrates) (D : Type) where
  db : D
  cache : crates.lru.LruCache
  pendingChanges : List Change

namespace StateStorage

/-! ## Keys -/

/-- `b"acc:"`. -/
def accountKey (address : Address) : Bytes := [97, 99, 99, 58] ++ address.asBytes.toList

/-- `b"blk:"`. -/
def blockKey (height : U64) : Bytes := [98, 108, 107, 58] ++ toLeBytes height

/-- `b"tx:"`. -/
def txKey (hash : Hash) : Bytes := [116, 120, 58] ++ hash.asBytes.toList

/-- `b"code:"`. -/
def contractKey (address : Address) : Bytes := [99, 111, 100, 101, 58] ++ address.asBytes.toList

/-- `b"stor:"`, with a colon between address and key. -/
def storageKey (address : Address) (key : Hash) : Bytes :=
  [115, 116, 111, 114, 58] ++ address.asBytes.toList ++ [58] ++ key.asBytes.toList

theorem accountKey_injective : Function.Injective accountKey := by
  intro first second same
  exact Address.eq_of_bytes (List.append_cancel_left same)

/-! ## Operations -/

section Operations
variable {crates : StorageCrates} {D : Type}

def new (crates : StorageCrates) (db : D) (cacheSize : Nat) : StateStorage crates D :=
  ⟨db, crates.lru.new cacheSize, []⟩

variable (storage : StateStorage crates D)

def cacheKey (crates : StorageCrates) (address : Address) : Hash :=
  Hash.new crates.sha3 address.asBytes.toList

/-- Append one write to the pending changes. -/
def pushChange (key value : Bytes) : StateStorage crates D :=
  { storage with pendingChanges := storage.pendingChanges ++ [(key, some value)] }

def putRecord {A : Type} (serde : Serde A) (key : Bytes) (record : A) :
    Except String Unit × StateStorage crates D :=
  match serde.serialize record with
  | .error message => (.error ("Serialization error: " ++ message), storage)
  | .ok value => (.ok (), storage.pushChange key value)

def keepAccount (address : Address) (account : Account) (value : Bytes) : StateStorage crates D :=
  { storage.pushChange (accountKey address) value with
    cache := crates.lru.put storage.cache (cacheKey crates address) account }

def putAccount (address : Address) (account : Account) :
    Except String Unit × StateStorage crates D :=
  match crates.account.serialize account with
  | .error message => (.error ("Serialization error: " ++ message), storage)
  | .ok value => (.ok (), storage.keepAccount address account value)

def putBlock (block : Block) : Except String Unit × StateStorage crates D :=
  storage.putRecord crates.block (blockKey block.header.height) block

def putTransaction (tx : Transaction) : Except String Unit × StateStorage crates D :=
  storage.putRecord crates.transaction (txKey (tx.hash crates.toCrates)) tx

def putContractCode (address : Address) (code : Bytes) :
    Except String Unit × StateStorage crates D :=
  (.ok (), storage.pushChange (contractKey address) code)

def putStorage (address : Address) (key : Hash) (value : Bytes) :
    Except String Unit × StateStorage crates D :=
  (.ok (), storage.pushChange (storageKey address key) value)

def rollback : StateStorage crates D := { storage with pendingChanges := [] }

variable [Database D]

/-- The changes are moved out of the list before the batch is written. -/
def commit : Except String Unit × StateStorage crates D :=
  if storage.pendingChanges.isEmpty then (.ok (), storage)
  else
    let (answer, db) := Database.batchWrite storage.db storage.pendingChanges
    (answer, { storage with db := db, pendingChanges := [] })

/-- A record of the database, `none` where it does not deserialize. -/
def getRecord {A : Type} (serde : Serde A) (key : Bytes) : Option A :=
  (Database.get storage.db key).bind serde.deserialize

/-- A miss loads the account from the database and keeps it in the cache. -/
def getAccount (address : Address) : Option Account × StateStorage crates D :=
  match crates.lru.get storage.cache (cacheKey crates address) with
  | (some account, cache) => (some account, { storage with cache := cache })
  | (none, cache) =>
    match storage.getRecord crates.account (accountKey address) with
    | some account =>
      (some account,
        { storage with cache := crates.lru.put cache (cacheKey crates address) account })
    | none => (none, { storage with cache := cache })

def getBlock (height : U64) : Option Block := storage.getRecord crates.block (blockKey height)

def getTransaction (hash : Hash) : Option Transaction :=
  storage.getRecord crates.transaction (txKey hash)

def getContractCode (address : Address) : Option Bytes :=
  Database.get storage.db (contractKey address)

def getStorage (address : Address) (key : Hash) : Option Bytes :=
  Database.get storage.db (storageKey address key)

end Operations

end StateStorage

/-! ## Concrete crates -/

namespace Sample

def lru (K V : Type) [DecidableEq K] : LruCrate K V where
  LruCache := Lru.Cache K V
  new := Lru.Cache.new K V
  get := Lru.Cache.get
  put := Lru.Cache.put
  iter := Lru.Cache.entries
  cap := Lru.Cache.capacity

theorem lru_documented (K V : Type) [DecidableEq K] : (lru K V).Documented where
  iter_new _ := rfl
  cap_new _ := rfl
  distinct := Lru.Cache.distinct
  bounded := Lru.Cache.bounded
  get_value := Lru.Cache.get_value
  iter_get := Lru.Cache.get_entries
  cap_get := Lru.Cache.get_capacity
  iter_put _ _ _ := rfl
  cap_put _ _ _ := rfl

/-- Accounts are written as they are by the node; no other record is read back. -/
def crates : StorageCrates where
  sha3 := Sample.sha3
  bincodeTransaction tx := some (Bincode.transaction tx)
  bincodeHeader header := some (Bincode.header header)
  secp :=
    { PublicKey := Bytes
      Message := Bytes
      Signature := Bytes
      publicKeyFromSlice := some
      messageFromSlice := some
      signatureFromCompact := some
      verifyEcdsa := fun _ _ _ => false }
  lru := lru Hash Account
  account := Bincode.serde Bincode.account
  block := ⟨fun _ => .error "SizeLimit", fun _ => none⟩
  transaction := ⟨fun tx => .ok (Bincode.transaction tx), fun _ => none⟩

theorem cacheKey_injective : Function.Injective (StateStorage.cacheKey crates) := by
  intro first second same
  have padded := congrArg (fun hash : Hash => hash.asBytes.toList.take 20) same
  have bytes : ∀ address : Address,
      (StateStorage.cacheKey crates address).asBytes.toList.take 20 = address.asBytes.toList := by
    intro address
    change ((address.asBytes.toList ++ List.replicate 32 0).take 32).take 20 = _
    rw [List.take_take]
    exact List.take_left' address.asBytes.toList_length
  simp only [bytes] at padded
  exact Address.eq_of_bytes padded

end Sample

end ProtonChain.Storage
