import ProtonChain.Storage.StateStorage

/-! Commits that fail.

A commit empties the list of pending changes before it knows whether the database
took them. What a failed commit was to write is gone.
-/

set_option autoImplicit false

namespace ProtonChain.Storage

/-- A batch is written as a whole or not at all. -/
structure AtomicBatches (D : Type) [Database D] : Prop where
  accepted : ∀ (db : D) batch, (Database.batchWrite db batch).1 = .ok () →
    Database.get (Database.batchWrite db batch).2 = overlay (Database.get db) batch
  refused : ∀ (db : D) batch message, (Database.batchWrite db batch).1 = .error message →
    Database.get (Database.batchWrite db batch).2 = Database.get db

namespace StateStorage

section Commit
variable {crates : StorageCrates} {D : Type} [Database D] (storage : StateStorage crates D)

/-- A failed commit keeps the pending changes. A later commit, on the database as it
then is and with what was put in between, writes what it would have written had the
first one succeeded. -/
def Retryable : Prop :=
  ∀ message, storage.commit.1 = .error message →
    storage.commit.2.pendingChanges = storage.pendingChanges ∧
      ∀ (db : D) (since : List Change) (retry : StateStorage crates D),
        Database.get db = Database.get storage.commit.2.db →
        retry = { storage.commit.2 with
          db := db
          pendingChanges := storage.commit.2.pendingChanges ++ since } →
        retry.commit.1 = .ok () →
          Database.get retry.commit.2.db =
            overlay (overlay (Database.get storage.db) storage.pendingChanges) since

variable {storage}

theorem commit_empty (empty : storage.pendingChanges = []) :
    storage.commit = (.ok (), storage) := by
  rw [commit, empty]
  rfl

theorem commit_batch (pending : storage.pendingChanges ≠ []) :
    storage.commit =
      ((Database.batchWrite storage.db storage.pendingChanges).1,
        { storage with
          db := (Database.batchWrite storage.db storage.pendingChanges).2
          pendingChanges := [] }) := by
  rw [commit, if_neg (mt List.isEmpty_iff.mp pending)]

theorem commit_fails_iff :
    (∃ message, storage.commit.1 = .error message) ↔
      storage.pendingChanges ≠ [] ∧
        (Database.batchWrite storage.db storage.pendingChanges).1 ≠ .ok () := by
  by_cases empty : storage.pendingChanges = []
  · refine iff_of_false (fun failed => ?_) fun both => both.1 empty
    obtain ⟨message, failed⟩ := failed
    rw [commit_empty empty] at failed
    cases failed
  · rw [commit_batch empty, and_iff_right empty]
    cases answer : (Database.batchWrite storage.db storage.pendingChanges).1 with
    | error message => exact iff_of_true ⟨message, rfl⟩ nofun
    | ok answer =>
      refine iff_of_false ?_ fun refused => refused rfl
      rintro ⟨message, failed⟩
      cases failed

theorem failed_commit_pendingChanges {message : String}
    (failed : storage.commit.1 = .error message) : storage.commit.2.pendingChanges = [] := by
  obtain ⟨pending, -⟩ := commit_fails_iff.mp ⟨message, failed⟩
  rw [commit_batch pending]

theorem retryable_iff :
    Retryable storage ↔ storage.pendingChanges = [] ∨
      (Database.batchWrite storage.db storage.pendingChanges).1 = .ok () := by
  have fails : ¬ (∃ message, storage.commit.1 = .error message) ↔
      storage.pendingChanges = [] ∨
        (Database.batchWrite storage.db storage.pendingChanges).1 = .ok () := by
    rw [commit_fails_iff, not_and_or, not_not, not_not]
  rw [← fails]
  constructor
  · rintro retryable ⟨message, failed⟩
    -- the list is empty after the failure, and was not before
    have kept := (retryable message failed).1
    rw [failed_commit_pendingChanges failed] at kept
    exact (commit_fails_iff.mp ⟨message, failed⟩).1 kept.symm
  · intro never message failed
    exact absurd ⟨message, failed⟩ never

end Commit

end StateStorage

open StateStorage

/-- A commit meets what it is to do exactly if it does not fail. After a failure the
next commit reports success and the database is as it was. -/
theorem commit_iff {crates : StorageCrates} {D : Type} [Database D] (atomic : AtomicBatches D)
    (storage : StateStorage crates D) :
    (Retryable storage ↔ storage.pendingChanges = [] ∨
        (Database.batchWrite storage.db storage.pendingChanges).1 = .ok ()) ∧
      ∀ message, storage.commit.1 = .error message →
        storage.commit.2.commit.1 = .ok () ∧
          Database.get storage.commit.2.commit.2.db = Database.get storage.db := by
  refine ⟨retryable_iff, fun message failed => ?_⟩
  rw [commit_empty (failed_commit_pendingChanges failed)]
  obtain ⟨pending, -⟩ := commit_fails_iff.mp ⟨message, failed⟩
  rw [commit_batch pending] at failed ⊢
  exact ⟨rfl, atomic.refused _ _ message failed⟩

namespace Sample

/-- A database in memory that refuses its next few batches. -/
structure BusyDB where
  db : MemoryDB
  refusals : Nat

instance : Database BusyDB where
  get busy key := Database.get busy.db key
  put busy key value := (.ok (), { busy with db := (Database.put busy.db key value).2 })
  delete busy key := (.ok (), { busy with db := (Database.delete busy.db key).2 })
  batchWrite busy batch :=
    match busy.refusals with
    | 0 => (.ok (), { busy with db := (Database.batchWrite busy.db batch).2 })
    | count + 1 => (.error "Batch write error: Busy", { busy with refusals := count })

theorem busyDB_atomic : AtomicBatches BusyDB where
  accepted busy batch taken := by
    obtain ⟨db, refusals⟩ := busy
    cases refusals with
    | zero => exact MemoryDB.get_batchWrite db batch
    | succ count => cases taken
  refused busy batch message failed := by
    obtain ⟨db, refusals⟩ := busy
    cases refusals with
    | zero => cases failed
    | succ count => rfl

def pending (refusals : Nat) : StateStorage Sample.crates BusyDB :=
  ((StateStorage.new Sample.crates ⟨MemoryDB.new, refusals⟩ 1).putContractCode
    (Sample.address 1) [1]).2

end Sample

theorem commit_sample : Retryable (Sample.pending 0) :=
  (commit_iff Sample.busyDB_atomic (Sample.pending 0)).1.mpr (.inr rfl)

/-- The change of a refused commit is missing from the list. -/
theorem refused_commit_drops_changes :
    (Sample.pending 1).commit.1 = .error "Batch write error: Busy" ∧
      (Sample.pending 1).commit.2.pendingChanges.length = 0 ∧
      (Sample.pending 1).pendingChanges.length = 1 ∧ ¬ Retryable (Sample.pending 1) := by
  refine ⟨rfl, rfl, rfl, fun retryable => ?_⟩
  have kept := (retryable "Batch write error: Busy" rfl).1
  cases congrArg List.length kept

end ProtonChain.Storage
