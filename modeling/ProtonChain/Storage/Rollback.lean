import ProtonChain.Storage.Coherence

/-! Rollback.

A rollback drops the pending changes. The puts have been in the cache as well, and
it keeps what they wrote and what they displaced.
-/

set_option autoImplicit false

namespace ProtonChain.Storage

inductive Put where
  | account (address : Address) (account : Account)
  | block (block : Block)
  | transaction (tx : Transaction)
  | contractCode (address : Address) (code : Bytes)
  | storage (address : Address) (key : Hash) (value : Bytes)

namespace StateStorage

section Puts
variable {crates : StorageCrates} {D : Type} (storage : StateStorage crates D)

def put : Put → Except String Unit × StateStorage crates D
  | .account address account => storage.putAccount address account
  | .block block => storage.putBlock block
  | .transaction tx => storage.putTransaction tx
  | .contractCode address code => storage.putContractCode address code
  | .storage address key value => storage.putStorage address key value

def cacheWrite (crates : StorageCrates) : Put → Option (Hash × Account)
  | .account address account =>
    match crates.account.serialize account with
    | .ok _ => some (cacheKey crates address, account)
    | .error _ => none
  | _ => none

/-- The entries that are cached after the puts: the most recent ones of the puts and
of what was cached before. -/
def survivors (puts : List Put) : List (Hash × Account) :=
  (Lru.recent (crates.lru.iter storage.cache) (puts.filterMap (cacheWrite crates))).take
    (crates.lru.cap storage.cache)

variable [Database D]

structure SameReads (first second : StateStorage crates D) : Prop where
  account : ∀ address, (first.getAccount address).1 = (second.getAccount address).1
  block : ∀ height, first.getBlock height = second.getBlock height
  transaction : ∀ hash, first.getTransaction hash = second.getTransaction hash
  contractCode : ∀ address, first.getContractCode address = second.getContractCode address
  storage : ∀ address key, first.getStorage address key = second.getStorage address key

/-- The cache holds nothing but what the database gives back. -/
def Coherent : Prop :=
  ∀ address account, storage.cached address = some account → storage.stored address = some account

/-- What is cached after the puts reads as before them, and what they displaced is in
the database as it was cached. -/
structure Undone (puts : List Put) : Prop where
  kept : ∀ address account, (cacheKey crates address, account) ∈ storage.survivors puts →
    storage.read address = some account
  displaced : ∀ address account, storage.cached address = some account →
    cacheKey crates address ∉ (storage.survivors puts).map Prod.fst →
      storage.stored address = some account

end Puts

/-! ## What puts change -/

section Effects
variable {crates : StorageCrates} {D : Type} {storage : StateStorage crates D}

theorem putRecord_cache (storage : StateStorage crates D) {A : Type} (serde : Serde A)
    (key : Bytes) (record : A) :
    (storage.putRecord serde key record).2.db = storage.db ∧
      (storage.putRecord serde key record).2.cache = storage.cache := by
  rw [putRecord]
  split <;> exact ⟨rfl, rfl⟩

theorem put_db (storage : StateStorage crates D) (put : Put) :
    (storage.put put).2.db = storage.db := by
  cases put with
  | account address account =>
    rw [StateStorage.put, putAccount]
    split <;> rfl
  | block block => exact (putRecord_cache storage crates.block _ block).1
  | transaction tx => exact (putRecord_cache storage crates.transaction _ tx).1
  | contractCode address code => rfl
  | storage address key value => rfl

theorem put_effect (documented : crates.lru.Documented) (storage : StateStorage crates D)
    (put : Put) :
    crates.lru.cap (storage.put put).2.cache = crates.lru.cap storage.cache ∧
      crates.lru.iter (storage.put put).2.cache =
        (cacheWrite crates put).elim (crates.lru.iter storage.cache) fun write =>
          Lru.put (crates.lru.cap storage.cache) (crates.lru.iter storage.cache) write.1
            write.2 := by
  cases put with
  | account address account =>
    cases written : crates.account.serialize account with
    | error message =>
      simp only [StateStorage.put, putAccount, cacheWrite, written, Option.elim_none, and_self]
    | ok data =>
      simp only [StateStorage.put, putAccount, cacheWrite, written]
      exact ⟨documented.cap_put _ _ _, documented.iter_put _ _ _⟩
  | block block =>
    have cache := (putRecord_cache storage crates.block (blockKey block.header.height) block).2
    exact ⟨congrArg _ cache, congrArg _ cache⟩
  | transaction tx =>
    have cache := (putRecord_cache storage crates.transaction
      (txKey (tx.hash crates.toCrates)) tx).2
    exact ⟨congrArg _ cache, congrArg _ cache⟩
  | contractCode address code => exact ⟨rfl, rfl⟩
  | storage address key value => exact ⟨rfl, rfl⟩

theorem run_put_db (puts : List Put) : (Runs.run put storage puts).2.db = storage.db := by
  induction puts generalizing storage with
  | nil => rfl
  | cons first rest ih =>
    rw [Runs.run_cons]
    exact ih.trans (put_db storage first)

theorem run_put_entries (documented : crates.lru.Documented) (puts : List Put) :
    crates.lru.iter (Runs.run put storage puts).2.cache =
      (puts.filterMap (cacheWrite crates)).foldl
        (fun entries write => Lru.put (crates.lru.cap storage.cache) entries write.1 write.2)
        (crates.lru.iter storage.cache) := by
  induction puts generalizing storage with
  | nil => rfl
  | cons first rest ih =>
    obtain ⟨cap, entries⟩ := put_effect documented storage first
    change crates.lru.iter (Runs.run put (storage.put first).2 rest).2.cache = _
    rw [ih, cap, entries]
    cases written : cacheWrite crates first with
    | none => rw [List.filterMap_cons_none written]; rfl
    | some write => rw [List.filterMap_cons_some written]; rfl

theorem run_put_survivors (documented : crates.lru.Documented) (puts : List Put) :
    crates.lru.iter (Runs.run put storage puts).2.cache = storage.survivors puts := by
  have whole := List.take_of_length_le (documented.bounded storage.cache)
  have cut := Lru.foldl_put (documented.distinct storage.cache) (crates.lru.cap storage.cache)
    (puts.filterMap (cacheWrite crates))
  rw [whole] at cut
  rw [run_put_entries documented]
  exact cut

variable (storage)

def rolledBack (puts : List Put) : StateStorage crates D :=
  (Runs.run put storage puts).2.rollback

def afterReads [Database D] (addresses : List Address) : StateStorage crates D :=
  (Runs.run (fun storage address => storage.getAccount address) storage addresses).2

variable {storage} (documented : crates.lru.Documented)
include documented

theorem rolledBack_cached (puts : List Put) (address : Address) :
    (storage.rolledBack puts).cached address =
      (storage.survivors puts).lookup (cacheKey crates address) := by
  change (crates.lru.iter (Runs.run put storage puts).2.cache).lookup _ = _
  rw [run_put_survivors documented]

theorem survivors_distinct (puts : List Put) : Lru.Distinct (storage.survivors puts) := by
  rw [← run_put_survivors documented]
  exact documented.distinct _

variable [Database D]

omit documented in
theorem rolledBack_stored (puts : List Put) (address : Address) :
    (storage.rolledBack puts).stored address = storage.stored address := by
  change (Database.get (Runs.run put storage puts).2.db _).bind _ = _
  rw [run_put_db]
  rfl

/-- The accounts read as before the puts exactly if what is cached reads as before
and what was displaced is backed. -/
theorem rolledBack_reads_iff (puts : List Put) :
    (∀ address, (storage.rolledBack puts).read address = storage.read address) ↔
      storage.Undone puts := by
  have distinct : Lru.Distinct (storage.survivors puts) := survivors_distinct documented puts
  constructor
  · intro reads
    constructor
    · intro address account survives
      rw [← reads address, read, rolledBack_cached documented,
        Lru.lookup_of_mem distinct survives, Option.some_or]
    · intro address account held gone
      have same := reads address
      rwa [read, read, rolledBack_cached documented, Lru.lookup_eq_none.mpr gone, Option.none_or,
        rolledBack_stored, held, Option.some_or] at same
  · intro undone address
    rw [read, rolledBack_cached documented]
    cases now : (storage.survivors puts).lookup (cacheKey crates address) with
    | some account =>
      rw [Option.some_or, undone.kept address account (Lru.mem_of_lookup now)]
    | none =>
      rw [Option.none_or, rolledBack_stored, read]
      cases held : storage.cached address with
      | none => rfl
      | some account =>
        rw [undone.displaced address account held (Lru.lookup_eq_none.mp now), Option.some_or]

theorem sameReads_iff {first second : StateStorage crates D} (db : first.db = second.db) :
    SameReads first second ↔ ∀ address, first.read address = second.read address := by
  constructor
  · intro same address
    rw [← getAccount_value documented, ← getAccount_value documented]
    exact same.account address
  · intro reads
    constructor
    · intro address
      rw [getAccount_value documented, getAccount_value documented]
      exact reads address
    · intro height
      rw [getBlock, getBlock, getRecord, getRecord, db]
    · intro hash
      rw [getTransaction, getTransaction, getRecord, getRecord, db]
    · intro address
      rw [getContractCode, getContractCode, db]
    · intro address key
      rw [getStorage, getStorage, db]

theorem rolledBack_sameReads_iff (puts : List Put) :
    SameReads (storage.rolledBack puts) storage ↔ storage.Undone puts := by
  have db : (storage.rolledBack puts).db = storage.db := run_put_db puts
  rw [sameReads_iff documented db, rolledBack_reads_iff documented]

/-! ## Reads one after another -/

omit documented in
theorem read_of_coherent (coherent : storage.Coherent) (address : Address) :
    storage.read address = storage.stored address := by
  rw [read]
  cases held : storage.cached address with
  | none => rfl
  | some account => rw [Option.some_or, coherent address account held]

theorem coherent_getAccount (apart : Function.Injective (cacheKey crates))
    (coherent : storage.Coherent) (address : Address) :
    (storage.getAccount address).2.Coherent := by
  intro other held now
  rw [getAccount_stored]
  rcases mem_getAccount documented (Lru.mem_of_lookup now) with before | ⟨key, found⟩
  · exact coherent other held (Lru.lookup_of_mem (documented.distinct _) before)
  · rw [apart key]
    exact found

theorem coherent_afterReads (apart : Function.Injective (cacheKey crates))
    (coherent : storage.Coherent) (addresses : List Address) :
    (storage.afterReads addresses).Coherent ∧ (storage.afterReads addresses).db = storage.db := by
  induction addresses generalizing storage with
  | nil => exact ⟨coherent, rfl⟩
  | cons address rest ih =>
    obtain ⟨later, db⟩ := ih (coherent_getAccount documented apart coherent address)
    exact ⟨later, db.trans getAccount_db⟩

theorem afterReads_sameReads (apart : Function.Injective (cacheKey crates))
    (coherent : storage.Coherent) (addresses : List Address) :
    SameReads (storage.afterReads addresses) storage := by
  obtain ⟨later, db⟩ := coherent_afterReads documented apart coherent addresses
  rw [sameReads_iff documented db]
  intro address
  rw [read_of_coherent later, read_of_coherent coherent, stored, getRecord, db]
  rfl

theorem rolledBack_coherent (coherent : storage.Coherent) {puts : List Put}
    (undone : storage.Undone puts) : (storage.rolledBack puts).Coherent := by
  intro address account survives
  rw [rolledBack_cached documented] at survives
  rw [rolledBack_stored, ← read_of_coherent coherent]
  exact undone.kept address account (Lru.mem_of_lookup survives)

end Effects

end StateStorage

open StateStorage

theorem StateStorage.SameReads.trans {crates : StorageCrates} {D : Type} [Database D]
    {first second third : StateStorage crates D} (left : SameReads first second)
    (right : SameReads second third) : SameReads first third where
  account address := (left.account address).trans (right.account address)
  block height := (left.block height).trans (right.block height)
  transaction hash := (left.transaction hash).trans (right.transaction hash)
  contractCode address := (left.contractCode address).trans (right.contractCode address)
  storage address key := (left.storage address key).trans (right.storage address key)

/-- After a rollback each read answers as right after the commit exactly if the
puts since are undone by what is cached and stored. If cache and database agreed at
the commit, the same holds of reads that follow other reads. -/
theorem rollback_iff {crates : StorageCrates} (documented : crates.lru.Documented)
    (storage : StateStorage crates MemoryDB) (puts : List Put) :
    let committed := storage.commit.2
    (SameReads (committed.rolledBack puts) committed ↔ committed.Undone puts) ∧
      (Function.Injective (cacheKey crates) → committed.Coherent →
        ((∀ addresses, SameReads ((committed.rolledBack puts).afterReads addresses) committed) ↔
          committed.Undone puts)) := by
  intro committed
  have once : SameReads (committed.rolledBack puts) committed ↔ committed.Undone puts :=
    rolledBack_sameReads_iff documented puts
  refine ⟨once, fun apart coherent => ⟨fun always => once.mp (always []), ?_⟩⟩
  intro undone addresses
  exact (afterReads_sameReads documented apart
    (rolledBack_coherent documented coherent undone) addresses).trans (once.mpr undone)

namespace Sample

/-- Account 1 is committed with 100 and cached. -/
def committed : StateStorage Sample.crates MemoryDB :=
  (Runs.run StateStorage.put (StateStorage.new Sample.crates MemoryDB.new 2)
    [.account (Sample.address 1) (Sample.funded 100)]).2.commit.2

end Sample

/-- The account put again as it was, and code that is dropped. -/
theorem rollback_sample :
    SameReads (Sample.committed.rolledBack
      [.account (Sample.address 1) (Sample.funded 100), .contractCode (Sample.address 2) [1]])
      Sample.committed := by
  refine (rollback_iff (Sample.lru_documented Hash Account)
    (Runs.run StateStorage.put (StateStorage.new Sample.crates MemoryDB.new 2)
      [.account (Sample.address 1) (Sample.funded 100)]).2
    [.account (Sample.address 1) (Sample.funded 100), .contractCode (Sample.address 2) [1]]).1.mpr
    ⟨fun address account survives => ?_, fun address account held gone => ?_⟩
  · obtain ⟨key, rfl⟩ := Prod.mk.inj (List.mem_singleton.mp survives)
    obtain rfl : address = Sample.address 1 := Sample.cacheKey_injective key
    decide
  · have member := List.mem_map_of_mem (f := Prod.fst) (Lru.mem_of_lookup held)
    exact absurd member gone

/-- An account put after the commit and rolled back is still read. -/
theorem rollback_keeps_cached_account :
    let committed := (StateStorage.new Sample.crates MemoryDB.new 2).commit.2
    ¬ SameReads (committed.rolledBack [.account (Sample.address 1) (Sample.funded 100)])
      committed := by
  intro committed same
  exact absurd (same.account (Sample.address 1)) (by decide)

end ProtonChain.Storage
