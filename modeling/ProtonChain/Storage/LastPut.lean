import ProtonChain.Library.Journal
import ProtonChain.Storage.StateRoot

/-! What the reads of the storage give back.

A run is a journal of writes, commits and rollbacks. The database holds under each key
the last write to it that was kept, and every kind of record is read back as it was put.
-/

set_option autoImplicit false

namespace ProtonChain.Storage

open Journal StateStorage

/-! ## Writes -/

namespace Put

def account? : Put → Option Account
  | .account _ value => some value
  | _ => none

def block? : Put → Option Block
  | .block value => some value
  | _ => none

def transaction? : Put → Option Transaction
  | .transaction tx => some tx
  | _ => none

def contractCode? : Put → Option Bytes
  | .contractCode _ code => some code
  | _ => none

def storage? : Put → Option Bytes
  | .storage _ _ value => some value
  | _ => none

end Put

/-- A put that the serializer accepted, and its bytes. -/
structure Write (crates : StorageCrates) where
  put : Put
  data : Bytes
  accepted : put.data crates = .ok data

namespace Write

variable {crates : StorageCrates}

def entry (write : Write crates) : Bytes × Bytes :=
  ((write.put.key crates).encode, write.data)

/-- The record of a write to that very key. -/
def recordAt {A : Type} (key : RecordKey) (record : Put → Option A) (write : Write crates) :
    Option A :=
  if write.put.key crates = key then record write.put else none

theorem entryAt_encode (key : RecordKey) (write : Write crates) :
    Store.entryAt entry key.encode write =
      if write.put.key crates = key then some write.data else none := by
  simp only [Store.entryAt, entry, RecordKey.encode_injective.eq_iff]

end Write

def Put.write (crates : StorageCrates) (put : Put) : Option (Write crates) :=
  match accepted : put.data crates with
  | .ok data => some ⟨put, data, accepted⟩
  | .error _ => none

theorem Put.write_of_accepted {crates : StorageCrates} {put : Put} {data : Bytes}
    (accepted : put.data crates = .ok data) : put.write crates = some ⟨put, data, accepted⟩ := by
  unfold Put.write
  split
  next data' same =>
    obtain rfl := Except.ok.inj (accepted.symm.trans same)
    rfl
  next refused =>
    rw [accepted] at refused
    cases refused

theorem Put.write_of_refused {crates : StorageCrates} {put : Put} {message : String}
    (refused : put.data crates = .error message) : put.write crates = none := by
  unfold Put.write
  split
  next accepted =>
    rw [refused] at accepted
    cases accepted
  · rfl

def StateStorage.Operation.event (crates : StorageCrates) :
    Operation → Option (Event (Write crates))
  | .put made => (made.write crates).map .write
  | .getAccount _ => none
  | .commit => some .commit
  | .rollback => some .rollback

/-- The accepted puts, the commits and the rollbacks of a run. -/
def journal (crates : StorageCrates) (operations : List Operation) : List (Event (Write crates)) :=
  operations.filterMap (Operation.event crates)

theorem mem_of_mem_journal {crates : StorageCrates} {operations : List Operation}
    {write : Write crates} (member : .write write ∈ journal crates operations) :
    .put write.put ∈ operations := by
  obtain ⟨operation, ran, happened⟩ := List.mem_filterMap.mp member
  cases operation with
  | put put =>
    obtain ⟨written, made, same⟩ := Option.map_eq_some_iff.mp happened
    obtain rfl : written = write := Event.write.inj same
    unfold Put.write at made
    split at made
    · rw [← Option.some.inj made]
      exact ran
    · cases made
  | getAccount address => cases happened
  | commit => cases happened
  | rollback => cases happened

namespace StateStorage

variable {crates : StorageCrates}

/-- The database next to what a commit would make of it. -/
def books {D : Type} [Database D] (storage : StateStorage crates D) : Store Bytes Bytes :=
  ⟨Database.get storage.db, storage.contents⟩

theorem books_operate (storage : StateStorage crates MemoryDB) (operation : Operation) :
    (storage.operate operation).books =
      ((operation.event crates).elim storage.books (Store.step Write.entry storage.books)) := by
  cases operation with
  | put put =>
    rw [operate, books, contents, put_db, put_changes, Operation.event]
    cases accepted : put.data crates with
    | ok data =>
      rw [Put.write_of_accepted accepted]
      refine congrArg (Store.mk _) (funext fun key => ?_)
      rw [overlay_concat]
      exact (Function.update_apply _ _ _ _).symm
    | error message =>
      rw [Put.write_of_refused accepted]
      rfl
  | getAccount address =>
    rw [operate, books, contents, getAccount_db, getAccount_pendingChanges]
    rfl
  | commit =>
    obtain ⟨-, written, pending, -⟩ := storage.commit_memory
    rw [operate, books, contents, written, pending]
    rfl
  | rollback => rfl

theorem books_run (start : StateStorage crates MemoryDB) (operations : List Operation) :
    (operations.foldl operate start).books =
      (journal crates operations).foldl (Store.step Write.entry) start.books := by
  induction operations generalizing start with
  | nil => rfl
  | cons operation rest ih =>
    rw [List.foldl_cons, ih, books_operate, journal, journal]
    cases happened : operation.event crates with
    | none => rw [List.filterMap_cons_none happened, Option.elim_none]
    | some event => rw [List.filterMap_cons_some happened, List.foldl_cons, Option.elim_some]

/-- A storage after a run that starts with an empty database. -/
def ran (crates : StorageCrates) (cacheSize : Nat) (operations : List Operation) :
    StateStorage crates MemoryDB :=
  operations.foldl operate (StateStorage.new crates MemoryDB.new cacheSize)

/-- The database holds under each key the bytes of the last kept write to it. -/
theorem get_ran (cacheSize : Nat) (operations : List Operation) (key : Bytes) :
    Database.get (ran crates cacheSize operations).db key =
      lastKept (Store.entryAt Write.entry key) (journal crates operations) := by
  have contents := Store.committed_run Write.entry
    (StateStorage.new crates MemoryDB.new cacheSize).books (journal crates operations) key
  rw [← books_run] at contents
  refine contents.trans ?_
  change (lastKept _ _).or (if _ then none else none) = _
  rw [ite_self, Option.or_none]

/-- Where each write to a key reads back as its record, the read of the key gives the record
that was written last. -/
theorem bind_get_ran {A : Type} (key : RecordKey) (read : Bytes → Option A)
    {record : Put → Option A}
    (reads : ∀ write : Write crates, write.put.key crates = key →
      ∃ value, record write.put = some value ∧ read write.data = some value)
    (cacheSize : Nat) (operations : List Operation) :
    (Database.get (ran crates cacheSize operations).db key.encode).bind read =
      lastKept (Write.recordAt key record) (journal crates operations) := by
  rw [get_ran, ← lastKept_bind]
  · congr 1
    funext write
    rw [Write.entryAt_encode, Write.recordAt]
    split
    next own =>
      obtain ⟨value, recorded, back⟩ := reads write own
      rw [Option.bind_some, recorded, back]
    · rfl
  · intro write data selected
    rw [Write.entryAt_encode] at selected
    split at selected
    next own =>
      obtain ⟨value, -, back⟩ := reads write own
      rw [← Option.some.inj selected]
      exact ⟨value, back⟩
    · cases selected

theorem stored_ran (accounts : crates.account.RoundTrips) (cacheSize : Nat)
    (operations : List Operation) (address : Address) :
    (ran crates cacheSize operations).stored address =
      lastKept (Write.recordAt (.account address) Put.account?) (journal crates operations) := by
  refine bind_get_ran (.account address) crates.account.deserialize ?_ cacheSize operations
  intro ⟨put, data, accepted⟩ own
  cases put with
  | account _ value => exact ⟨value, rfl, accounts value data accepted⟩
  | _ => cases own

theorem getBlock_ran (blocks : crates.block.RoundTrips) (cacheSize : Nat)
    (operations : List Operation) (height : U64) :
    (ran crates cacheSize operations).getBlock height =
      lastKept (Write.recordAt (.block height) Put.block?) (journal crates operations) := by
  refine bind_get_ran (.block height) crates.block.deserialize ?_ cacheSize operations
  intro ⟨put, data, accepted⟩ own
  cases put with
  | block value => exact ⟨value, rfl, blocks value data accepted⟩
  | _ => cases own

theorem getTransaction_ran (transactions : crates.transaction.RoundTrips) (cacheSize : Nat)
    (operations : List Operation) (hash : Hash) :
    (ran crates cacheSize operations).getTransaction hash =
      lastKept (Write.recordAt (.transaction hash) Put.transaction?)
        (journal crates operations) := by
  refine bind_get_ran (.transaction hash) crates.transaction.deserialize ?_ cacheSize
    operations
  intro ⟨put, data, accepted⟩ own
  cases put with
  | transaction tx => exact ⟨tx, rfl, transactions tx data accepted⟩
  | _ => cases own

theorem getContractCode_ran (cacheSize : Nat) (operations : List Operation) (address : Address) :
    (ran crates cacheSize operations).getContractCode address =
      lastKept (Write.recordAt (.contractCode address) Put.contractCode?)
        (journal crates operations) := by
  rw [← bind_get_ran (.contractCode address) some ?_ cacheSize operations]
  · exact (Option.bind_fun_some _).symm
  · intro ⟨put, data, accepted⟩ own
    cases put with
    | contractCode _ code => exact ⟨code, rfl, congrArg some (Except.ok.inj accepted).symm⟩
    | _ => cases own

theorem getStorage_ran (cacheSize : Nat) (operations : List Operation) (address : Address)
    (slot : Hash) :
    (ran crates cacheSize operations).getStorage address slot =
      lastKept (Write.recordAt (.storage address slot) Put.storage?)
        (journal crates operations) := by
  rw [← bind_get_ran (.storage address slot) some ?_ cacheSize operations]
  · exact (Option.bind_fun_some _).symm
  · intro ⟨put, data, accepted⟩ own
    cases put with
    | storage _ _ value => exact ⟨value, rfl, congrArg some (Except.ok.inj accepted).symm⟩
    | _ => cases own

end StateStorage

/-- After any run each read gives the record of the last write to that very key that was kept,
and nothing if there is none. -/
theorem reads_last_committed {crates : StorageCrates} (blocks : crates.block.RoundTrips)
    (transactions : crates.transaction.RoundTrips) (cacheSize : Nat)
    (operations : List Operation) :
    let storage := ran crates cacheSize operations
    let events := journal crates operations
    (∀ height block, storage.getBlock height = some block ↔
        LastKept (Write.recordAt (.block height) Put.block?) events block) ∧
      (∀ hash tx, storage.getTransaction hash = some tx ↔
        LastKept (Write.recordAt (.transaction hash) Put.transaction?) events tx) ∧
      (∀ address code, storage.getContractCode address = some code ↔
        LastKept (Write.recordAt (.contractCode address) Put.contractCode?) events code) ∧
      ∀ address key value, storage.getStorage address key = some value ↔
        LastKept (Write.recordAt (.storage address key) Put.storage?) events value := by
  intro storage events
  refine ⟨fun height block => ?_, fun hash tx => ?_, fun address code => ?_,
    fun address key value => ?_⟩
  · rw [getBlock_ran blocks, lastKept_eq_some_iff]
  · rw [getTransaction_ran transactions, lastKept_eq_some_iff]
  · rw [getContractCode_ran, lastKept_eq_some_iff]
  · rw [getStorage_ran, lastKept_eq_some_iff]

namespace Sample

def recordCrates : StorageCrates :=
  { crates with transaction := Bincode.serde Bincode.transactionCodec }

def payment : Transaction where
  txType := .transfer
  nonce := 0
  sender := Sample.address 1
  receiver := some (Sample.address 2)
  value := 5
  gasPrice := 1
  gasLimit := 21000
  data := []
  shardId := 0
  timestamp := 0
  signature := []
  stealthAddress := none
  zkProof := none
  encryptedAmount := none

/-- Code is overwritten, and what follows the commit is dropped. -/
def recordRun : List Operation :=
  [.put (.contractCode (Sample.address 1) [1]), .put (.transaction payment),
    .put (.contractCode (Sample.address 1) [2]), .commit,
    .put (.contractCode (Sample.address 1) [3]), .rollback]

end Sample

theorem reads_last_committed_sample :
    (ran Sample.recordCrates 1 Sample.recordRun).getTransaction
        (Sample.payment.hash Sample.recordCrates.toCrates) = some Sample.payment ∧
      (ran Sample.recordCrates 1 Sample.recordRun).getContractCode (Sample.address 1) =
        some [2] ∧
      (ran Sample.recordCrates 1 Sample.recordRun).getStorage (Sample.address 1) Hash.zero =
        none := by
  have blocks : Sample.recordCrates.block.RoundTrips := nofun
  obtain ⟨-, transaction, code, storage⟩ := reads_last_committed blocks
    (Bincode.serde_roundTrips Bincode.transactionCodec) 1 Sample.recordRun
  refine ⟨(transaction _ _).mpr (lastKept_eq_some_iff.mp ?_),
    (code _ _).mpr (lastKept_eq_some_iff.mp ?_), ?_⟩
  · rfl
  · rfl
  · refine Option.eq_none_iff_forall_ne_some.mpr fun value found => ?_
    have nothing := lastKept_eq_some_iff.mpr ((storage _ _ _).mp found)
    cases nothing

end ProtonChain.Storage
