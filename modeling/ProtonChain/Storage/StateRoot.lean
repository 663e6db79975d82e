import Mathlib.Data.Set.Function
import ProtonChain.Storage.Records

/-! The state root of the storage and the snapshots that carry it.

The root is the digest of the pending changes, keys and values one after another. What
is committed does not enter it.
-/

set_option autoImplicit false

namespace ProtonChain.Storage

namespace StateStorage

/-- The buffer after the loop over the changes; a deletion adds its key alone. -/
def rootData (changes : List Change) : Bytes :=
  changes.foldl (fun data change =>
    match change.2 with
    | some value => data ++ change.1 ++ value
    | none => data ++ change.1) []

section Root
variable {crates : StorageCrates} {D : Type} (storage : StateStorage crates D)

def stateRoot : Hash := Hash.new crates.sha3 (rootData storage.pendingChanges)

variable [Database D]

/-- The logical contents: what is committed, overlaid with the pending changes. -/
def contents : Bytes → Option Bytes :=
  overlay (Database.get storage.db) storage.pendingChanges

end Root

end StateStorage

structure StateSnapshot where
  blockHeight : U64
  stateRoot : Hash
  accounts : List (Address × Account)
  timestamp : U64
  deriving DecidableEq

namespace StateSnapshot

/-- `&key[4..24]`: the slice of a shorter key panics. -/
def addressOf (key : Bytes) : Option Address :=
  if sized : ((key.drop 4).take 20).length = 20 then some ⟨⟨(key.drop 4).take 20, sized⟩⟩
  else none

/-- The loop over what the iterator of the database yields for the prefix `acc:`. -/
def readAccounts (serde : Serde Account) :
    List (Bytes × Bytes) → Option (List (Address × Account))
  | [] => some []
  | (key, value) :: rest =>
    match serde.deserialize value with
    | none => readAccounts serde rest
    | some account => do
      let address ← addressOf key
      let accounts ← readAccounts serde rest
      return (address, account) :: accounts

/-- What the iterator of a database in memory yields for the prefix `acc:`, in some order. -/
def Iterates (db : MemoryDB) (iterator : List (Bytes × Bytes)) : Prop :=
  ∃ order, FiniteMap.Listing db.data order ∧
    iterator = order.filter fun entry => [97, 99, 99, 58].isPrefixOf entry.1

def create {crates : StorageCrates} {D : Type} (storage : StateStorage crates D)
    (iterator : List (Bytes × Bytes)) (blockHeight timestamp : U64) : Option StateSnapshot := do
  let accounts ← readAccounts crates.account iterator
  return ⟨blockHeight, storage.stateRoot, accounts, timestamp⟩

theorem create_stateRoot {crates : StorageCrates} {D : Type} {storage : StateStorage crates D}
    {iterator : List (Bytes × Bytes)} {blockHeight timestamp : U64} {snapshot : StateSnapshot}
    (created : create storage iterator blockHeight timestamp = some snapshot) :
    snapshot.stateRoot = storage.stateRoot := by
  obtain ⟨accounts, -, same⟩ := Option.bind_eq_some_iff.mp created
  exact congrArg StateSnapshot.stateRoot (Option.some.inj same).symm

theorem addressOf_accountKey (address : Address) :
    addressOf (StateStorage.accountKey address) = some address := by
  have bytes : ((StateStorage.accountKey address).drop 4).take 20 = address.asBytes.toList :=
    List.take_of_length_le (Nat.le_of_eq address.asBytes.toList_length)
  have sized : (((StateStorage.accountKey address).drop 4).take 20).length = 20 := by
    rw [bytes, List.Vector.toList_length]
  rw [addressOf, dif_pos sized]
  exact congrArg (fun bytes => some (Address.mk bytes)) (List.Vector.eq _ _ bytes)

end StateSnapshot

namespace StateStorage

/-! ## Runs -/

inductive Operation where
  | put (put : Put)
  | getAccount (address : Address)
  | commit
  | rollback

section Reachable
variable {crates : StorageCrates} {D : Type} [Database D]

def operate (storage : StateStorage crates D) : Operation → StateStorage crates D
  | .put put => (storage.put put).2
  | .getAccount address => (storage.getAccount address).2
  | .commit => storage.commit.2
  | .rollback => storage.rollback

/-- Some run of calls leads from a new storage to this one. -/
inductive Reachable : StateStorage crates D → Prop
  | new (db : D) (cacheSize : Nat) : Reachable (new crates db cacheSize)
  | step {storage : StateStorage crates D} (earlier : Reachable storage) (operation : Operation) :
    Reachable (storage.operate operation)

theorem commit_pendingChanges (storage : StateStorage crates D) :
    storage.commit.2.pendingChanges = [] := by
  rw [commit]
  split
  next empty => exact List.isEmpty_iff.mp empty
  · rfl

theorem Reachable.keyed {storage : StateStorage crates D} (reachable : storage.Reachable) :
    ∀ change ∈ storage.pendingChanges, change.1 ≠ [] := by
  induction reachable with
  | new db cacheSize => exact List.forall_mem_nil _
  | @step storage earlier operation ih =>
    cases operation with
    | put put =>
      rw [operate, put_changes]
      split
      · intro change member
        rcases List.mem_append.mp member with old | new
        · exact ih change old
        · rw [List.mem_singleton.mp new]
          exact (put.key crates).encode_ne_nil
      · exact ih
    | getAccount address =>
      rw [operate, getAccount_pendingChanges]
      exact ih
    | commit =>
      rw [operate, commit_pendingChanges]
      exact List.forall_mem_nil _
    | rollback => exact List.forall_mem_nil _

end Reachable

/-! ## What the root commits to -/

theorem rootData_eq_flatMap (changes : List Change) :
    rootData changes = changes.flatMap fun change => change.1 ++ change.2.getD [] := by
  induction changes using List.reverseRecOn with
  | nil => rfl
  | append_singleton changes last ih =>
    obtain ⟨key, value⟩ := last
    rw [rootData, List.foldl_concat, ← rootData, ih, List.flatMap_append, List.flatMap_singleton]
    cases value with
    | none => simp
    | some value => simp

theorem rootData_eq_nil {changes : List Change} (keyed : ∀ change ∈ changes, change.1 ≠ []) :
    rootData changes = [] ↔ changes = [] := by
  constructor
  · intro empty
    cases changes with
    | nil => rfl
    | cons first rest =>
      rw [rootData_eq_flatMap, List.flatMap_cons] at empty
      have key := (List.append_eq_nil_iff.mp (List.append_eq_nil_iff.mp empty).1).1
      exact absurd key (keyed first List.mem_cons_self)
  · rintro rfl
    rfl

section Root
variable {crates : StorageCrates} {D : Type} {first second : StateStorage crates D}

def rootMessages (first second : StateStorage crates D) : Set Bytes :=
  {rootData first.pendingChanges, rootData second.pendingChanges, []}

theorem stateRoot_eq_iff_rootData
    (free : Set.InjOn (Hash.new crates.sha3) (rootMessages first second)) :
    first.stateRoot = second.stateRoot ↔
      rootData first.pendingChanges = rootData second.pendingChanges :=
  free.eq_iff (.inl rfl) (.inr (.inl rfl))

theorem stateRoot_eq_empty_iff [Database D] (reachable : first.Reachable)
    (free : Set.InjOn (Hash.new crates.sha3) (rootMessages first second)) :
    first.stateRoot = Hash.new crates.sha3 [] ↔ first.pendingChanges = [] := by
  rw [← rootData_eq_nil reachable.keyed]
  exact free.eq_iff (.inl rfl) (.inr (.inr rfl))

theorem commit_stateRoot [Database D] (storage : StateStorage crates D) :
    storage.commit.2.stateRoot = Hash.new crates.sha3 [] := by
  rw [stateRoot, commit_pendingChanges]
  rfl

end Root

end StateStorage

open StateStorage

/-- The root identifies the bytes of the pending changes in the order of the writes,
whatever is committed. A commit or a rollback leaves the root of no changes, and so
changes the root exactly if something was pending; a snapshot carries the root of the
storage it is taken of. -/
theorem stateRoot_pending {crates : StorageCrates} {D : Type} [Database D]
    {first second : StateStorage crates D} (reachable : first.Reachable)
    (free : Set.InjOn (Hash.new crates.sha3) (rootMessages first second)) :
    (first.stateRoot = second.stateRoot ↔
        rootData first.pendingChanges = rootData second.pendingChanges) ∧
      (first.commit.2.stateRoot = Hash.new crates.sha3 [] ∧
        first.rollback.stateRoot = Hash.new crates.sha3 []) ∧
      (first.commit.2.stateRoot = first.stateRoot ↔ first.pendingChanges = []) ∧
      ∀ iterator iterator' blockHeight blockHeight' timestamp timestamp' snapshot snapshot',
        StateSnapshot.create first iterator blockHeight timestamp = some snapshot →
          StateSnapshot.create second iterator' blockHeight' timestamp' = some snapshot' →
            (snapshot.stateRoot = snapshot'.stateRoot ↔
              rootData first.pendingChanges = rootData second.pendingChanges) := by
  have roots := stateRoot_eq_iff_rootData free
  refine ⟨roots, ⟨commit_stateRoot first, rfl⟩, ?_, ?_⟩
  · rw [commit_stateRoot, eq_comm]
    exact stateRoot_eq_empty_iff reachable free
  · intro iterator iterator' blockHeight blockHeight' timestamp timestamp' snapshot snapshot'
      created created'
    rw [StateSnapshot.create_stateRoot created, StateSnapshot.create_stateRoot created']
    exact roots

namespace Sample

/-- An account is put and waits for its commit. -/
def waiting : StateStorage Sample.crates MemoryDB :=
  ((StateStorage.new Sample.crates MemoryDB.new 2).put
    (.account (Sample.address 1) (Sample.funded 100))).2

theorem waiting_reachable : waiting.Reachable :=
  .step (.new MemoryDB.new 2) (.put (.account (Sample.address 1) (Sample.funded 100)))

theorem committed_reachable : Sample.committed.Reachable :=
  .step waiting_reachable .commit

end Sample

theorem stateRoot_pending_sample :
    Sample.waiting.commit.2.stateRoot ≠ Sample.waiting.stateRoot := by
  have free : Set.InjOn (Hash.new Sample.crates.sha3) (rootMessages Sample.waiting
      Sample.waiting) := by
    rw [rootMessages, Set.insert_eq_of_mem (Set.mem_insert _ _), Set.injOn_insert (by decide),
      Set.image_singleton]
    exact ⟨Set.injOn_singleton _ _, by decide⟩
  intro same
  exact absurd ((stateRoot_pending Sample.waiting_reachable free).2.2.1.mp same) (by decide)

/-- A committed account is not seen by the root: a storage that holds it and an empty one
have one root, and so have their snapshots. -/
theorem committed_account_keeps_stateRoot :
    let fresh := StateStorage.new Sample.crates MemoryDB.new 2
    Sample.committed.Reachable ∧ fresh.Reachable ∧
      Set.InjOn (Hash.new Sample.crates.sha3) (rootMessages Sample.committed fresh) ∧
      Sample.committed.stateRoot = fresh.stateRoot ∧
      Sample.committed.contents ≠ fresh.contents ∧
      ∃ iterator snapshot snapshot', StateSnapshot.Iterates Sample.committed.db iterator ∧
        StateSnapshot.Iterates fresh.db [] ∧
        StateSnapshot.create Sample.committed iterator 1 0 = some snapshot ∧
        StateSnapshot.create fresh [] 1 0 = some snapshot' ∧
        snapshot.accounts ≠ snapshot'.accounts ∧
        snapshot.stateRoot = snapshot'.stateRoot := by
  intro fresh
  have differ : Sample.committed.contents ≠ fresh.contents := by
    intro same
    exact absurd (congrFun same (accountKey (Sample.address 1))) (by decide)
  refine ⟨Sample.committed_reachable, .new _ _, ?_, rfl, differ, ?_⟩
  · have messages : rootMessages Sample.committed fresh = {[]} := by
      rw [rootMessages]
      exact (Set.insert_eq_of_mem (Set.mem_insert _ _)).trans (Set.insert_eq_of_mem rfl)
    rw [messages]
    exact Set.injOn_singleton _ _
  · let data := Bincode.account.encode (Sample.funded 100)
    refine ⟨[(accountKey (Sample.address 1), data)],
      ⟨1, fresh.stateRoot, [(Sample.address 1, Sample.funded 100)], 0⟩,
      ⟨1, fresh.stateRoot, [], 0⟩, ⟨[(accountKey (Sample.address 1), data)], ?_, ?_⟩,
      ⟨[], FiniteMap.listing_empty, rfl⟩, ?_, rfl, List.cons_ne_nil _ _, rfl⟩
    · exact FiniteMap.listing_empty.insert data Finmap.notMem_empty
    · decide
    · decide

end ProtonChain.Storage
