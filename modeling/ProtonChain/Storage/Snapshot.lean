import ProtonChain.Storage.LastPut

/-! Snapshots and what they restore.

A snapshot lists the accounts of the database as its iterator yields them. To apply it
is to put every account and to commit once.
-/

set_option autoImplicit false

namespace ProtonChain.Storage

open Journal StateStorage

namespace StateSnapshot

section Apply
variable {crates : StorageCrates} {D : Type} [Database D]

omit [Database D] in
/-- The loop over the accounts, left at the first that is refused. -/
def putAccounts (storage : StateStorage crates D) :
    List (Address × Account) → Except String Unit × StateStorage crates D
  | [] => (.ok (), storage)
  | (address, account) :: rest =>
    match storage.putAccount address account with
    | (.error message, storage) => (.error message, storage)
    | (.ok (), storage) => putAccounts storage rest

def apply (snapshot : StateSnapshot) (storage : StateStorage crates D) :
    Except String Unit × StateStorage crates D :=
  match putAccounts storage snapshot.accounts with
  | (.error message, storage) => (.error message, storage)
  | (.ok (), storage) => storage.commit

end Apply

section Create
variable {serde : Serde Account}

/-- Entries that are accounts under the keys of accounts are read without a panic, whatever
their order. -/
theorem readAccounts_total {iterator : List (Bytes × Bytes)}
    (sound : ∀ entry ∈ iterator, ∃ address account,
      entry.1 = accountKey address ∧ serde.deserialize entry.2 = some account) :
    ∃ accounts, readAccounts serde iterator = some accounts ∧
      ∀ address account, (address, account) ∈ accounts ↔
        ∃ value, (accountKey address, value) ∈ iterator ∧
          serde.deserialize value = some account := by
  induction iterator with
  | nil => exact ⟨[], rfl, fun address account => by simp⟩
  | cons entry rest ih =>
    obtain ⟨accounts, read, listed⟩ := ih fun entry member =>
      sound entry (List.mem_cons_of_mem _ member)
    obtain ⟨address, account, key, value⟩ := sound entry List.mem_cons_self
    obtain ⟨bytes, data⟩ := entry
    obtain rfl : bytes = accountKey address := key
    refine ⟨(address, account) :: accounts, ?_, fun other held => ?_⟩
    · simp only [readAccounts, value, addressOf_accountKey, read]
      rfl
    · rw [List.mem_cons, listed]
      constructor
      · rintro (same | ⟨value', member, back⟩)
        · obtain ⟨rfl, rfl⟩ := Prod.mk.inj same
          exact ⟨data, List.mem_cons_self, value⟩
        · exact ⟨value', List.mem_cons_of_mem _ member, back⟩
      · rintro ⟨value', member, back⟩
        rcases List.mem_cons.mp member with same | later
        · obtain ⟨keys, rfl⟩ := Prod.mk.inj same
          rw [accountKey_injective keys, Option.some.inj (back.symm.trans value)]
          exact .inl rfl
        · exact .inr ⟨value', later, back⟩

end Create

end StateSnapshot

/-! ## The source -/

section Source
variable {crates : StorageCrates}

/-- The prefix tells accounts from the other kinds. -/
theorem account_of_prefix {key : RecordKey}
    (listed : [97, 99, 99, 58].isPrefixOf key.encode = true) :
    ∃ address, key = .account address := by
  cases key with
  | account address => exact ⟨address, rfl⟩
  | block height => cases listed
  | transaction hash => cases listed
  | contractCode address => cases listed
  | storage address key => cases listed

theorem account_of_listed {cacheSize : Nat} {operations : List Operation} {key value : Bytes}
    (found : Database.get (ran crates cacheSize operations).db key = some value)
    (listed : [97, 99, 99, 58].isPrefixOf key = true) :
    ∃ address account, key = accountKey address ∧
      crates.account.serialize account = .ok value ∧
      .put (.account address account) ∈ operations := by
  rw [get_ran] at found
  obtain ⟨⟨put, data, accepted⟩, member, selected⟩ := mem_of_lastKept found
  rw [Store.entryAt] at selected
  split at selected
  next own =>
    obtain rfl : data = value := Option.some.inj selected
    rw [← own] at listed ⊢
    obtain ⟨address, kind⟩ := account_of_prefix listed
    cases put with
    | account holder account =>
      exact ⟨holder, account, rfl, accepted, mem_of_mem_journal member⟩
    | _ => cases kind
  · cases selected

theorem put_of_stored (accounts : crates.account.RoundTrips) {cacheSize : Nat}
    {operations : List Operation} {address : Address} {account : Account}
    (held : (ran crates cacheSize operations).stored address = some account) :
    .put (.account address account) ∈ operations ∧
      ∃ data, crates.account.serialize account = .ok data := by
  rw [stored_ran accounts] at held
  obtain ⟨⟨put, data, accepted⟩, member, selected⟩ := mem_of_lastKept held
  rw [Write.recordAt] at selected
  split at selected
  next own =>
    cases put with
    | account holder value =>
      obtain rfl : holder = address := RecordKey.account.inj own
      obtain rfl : value = account := Option.some.inj selected
      exact ⟨mem_of_mem_journal member, data, accepted⟩
    | _ => cases own
  · cases selected

variable (accounts : crates.account.RoundTrips) {cacheSize : Nat} {operations : List Operation}
  {iterator : List (Bytes × Bytes)}
  (iterates : StateSnapshot.Iterates (ran crates cacheSize operations).db iterator)
include accounts iterates

/-- The snapshot is taken without a panic, and lists the accounts that the database holds. -/
theorem readAccounts_ran :
    ∃ listed, StateSnapshot.readAccounts crates.account iterator = some listed ∧
      ∀ address account, (address, account) ∈ listed ↔
        (ran crates cacheSize operations).stored address = some account := by
  obtain ⟨order, listing, rfl⟩ := iterates
  have sound : ∀ entry ∈ order.filter fun entry => [97, 99, 99, 58].isPrefixOf entry.1,
      ∃ address account, entry.1 = accountKey address ∧
        crates.account.deserialize entry.2 = some account := by
    intro entry member
    obtain ⟨member, named⟩ := List.mem_filter.mp member
    obtain ⟨address, account, key, written, -⟩ :=
      account_of_listed ((listing.listed entry.1 entry.2).mp member) named
    exact ⟨address, account, key, accounts account entry.2 written⟩
  obtain ⟨listed, read, members⟩ := StateSnapshot.readAccounts_total sound
  refine ⟨listed, read, fun address account => ?_⟩
  rw [members, stored, getRecord, Option.bind_eq_some_iff]
  have named : [97, 99, 99, 58].isPrefixOf (accountKey address) = true := rfl
  refine exists_congr fun value => and_congr_left fun _ => ?_
  rw [List.mem_filter, and_iff_left named]
  exact listing.listed (accountKey address) value

end Source

/-! ## The target -/

/-- The calls of a snapshot that is applied. -/
def restoring (accounts : List (Address × Account)) : List Operation :=
  accounts.map (fun entry => .put (.account entry.1 entry.2)) ++ [.commit]

section Target
variable {crates : StorageCrates} {listed : List (Address × Account)}
  (written : ∀ address account, (address, account) ∈ listed →
    ∃ data, crates.account.serialize account = .ok data)

include written in
theorem putAccounts_eq {D : Type} [Database D] (storage : StateStorage crates D) :
    StateSnapshot.putAccounts storage listed =
      (.ok (), (listed.map fun entry => .put (.account entry.1 entry.2)).foldl operate
        storage) := by
  induction listed generalizing storage with
  | nil => rfl
  | cons entry rest ih =>
    obtain ⟨address, account⟩ := entry
    obtain ⟨data, accepted⟩ := written address account List.mem_cons_self
    have put : storage.putAccount address account =
        (.ok (), storage.operate (.put (.account address account))) := by
      rw [operate, StateStorage.put, putAccount, accepted]
    rw [StateSnapshot.putAccounts, put]
    exact ih (fun address account member => written address account (List.mem_cons_of_mem _ member))
      _

include written in
theorem apply_new {snapshot : StateSnapshot} (same : snapshot.accounts = listed)
    (cacheSize : Nat) :
    snapshot.apply (StateStorage.new crates MemoryDB.new cacheSize) =
      (.ok (), ran crates cacheSize (restoring listed)) := by
  rw [StateSnapshot.apply, same, putAccounts_eq written, ran, restoring, List.foldl_append]
  exact Prod.ext (commit_memory _).1 rfl

theorem journal_restoring (listed : List (Address × Account)) :
    journal crates (restoring listed) =
      (listed.filterMap fun entry => Put.write crates (.account entry.1 entry.2)).map .write ++
        [.commit] := by
  rw [journal, restoring, List.filterMap_append, List.filterMap_map, List.map_filterMap]
  rfl

include written in
theorem stored_restored (accounts : crates.account.RoundTrips)
    (unique : ∀ address account account', (address, account) ∈ listed →
      (address, account') ∈ listed → account = account')
    (cacheSize : Nat) (address : Address) (account : Account) :
    (ran crates cacheSize (restoring listed)).stored address = some account ↔
      (address, account) ∈ listed := by
  have sound : ∀ {value}, (ran crates cacheSize (restoring listed)).stored address = some value →
      (address, value) ∈ listed := by
    intro value held
    have put := (put_of_stored accounts held).1
    simpa [restoring] using put
  constructor
  · exact sound
  · intro member
    obtain ⟨data, accepted⟩ := written address account member
    have kept : (ran crates cacheSize (restoring listed)).stored address ≠ none := by
      rw [stored_ran accounts, journal_restoring]
      let write : Write crates := ⟨.account address account, data, accepted⟩
      have made : write ∈
          listed.filterMap fun entry => Put.write crates (.account entry.1 entry.2) :=
        List.mem_filterMap.mpr ⟨_, member, Put.write_of_accepted write.accepted⟩
      exact lastKept_ne_none made (if_pos rfl) []
    obtain ⟨value, held⟩ := Option.ne_none_iff_exists'.mp kept
    rw [held, unique address account value member (sound held)]

end Target

/-! ## Reads of the target -/

namespace StateStorage

section Sourced
variable {crates : StorageCrates} {D : Type} [Database D]

/-- Every cached account is held by the database under an address of the set. -/
def Sourced (storage : StateStorage crates D) (addresses : Set Address) : Prop :=
  ∀ entry ∈ crates.lru.iter storage.cache, ∃ address ∈ addresses,
    entry.1 = cacheKey crates address ∧ storage.stored address = some entry.2

variable {storage : StateStorage crates D} {addresses : Set Address}

theorem read_of_sourced (sourced : storage.Sourced addresses)
    (apart : Set.InjOn (cacheKey crates) addresses) {address : Address}
    (member : address ∈ addresses) : storage.read address = storage.stored address := by
  rw [read]
  cases hit : storage.cached address with
  | none => rfl
  | some account =>
    obtain ⟨holder, known, key, held⟩ := sourced _ (Lru.mem_of_lookup hit)
    obtain rfl : address = holder := apart member known key
    rw [Option.some_or, held]

variable (documented : crates.lru.Documented)
include documented

theorem sourced_getAccount (sourced : storage.Sourced addresses) {address : Address}
    (member : address ∈ addresses) : (storage.getAccount address).2.Sourced addresses := by
  intro entry now
  simp only [getAccount_stored]
  rcases mem_getAccount documented now with old | ⟨key, held⟩
  · exact sourced entry old
  · exact ⟨address, member, key, held⟩

theorem getAccount_afterReads (apart : Set.InjOn (cacheKey crates) addresses)
    (sourced : storage.Sourced addresses) {reads : List Address}
    (known : ∀ address ∈ reads, address ∈ addresses) {address : Address}
    (member : address ∈ addresses) :
    ((storage.afterReads reads).getAccount address).1 = storage.stored address := by
  induction reads generalizing storage with
  | nil => exact (getAccount_value documented).trans (read_of_sourced sourced apart member)
  | cons first rest ih =>
    have next := ih (sourced_getAccount documented sourced (known first List.mem_cons_self))
      fun address later => known address (List.mem_cons_of_mem _ later)
    exact next.trans (getAccount_stored _)

theorem mem_cache_puts {listed : List (Address × Account)} {entry : Hash × Account}
    (now : entry ∈ crates.lru.iter
      ((listed.map fun entry => .put (.account entry.1 entry.2)).foldl operate storage).cache) :
    entry ∈ crates.lru.iter storage.cache ∨
      ∃ address account, (address, account) ∈ listed ∧
        entry = (cacheKey crates address, account) := by
  induction listed generalizing storage with
  | nil => exact .inl now
  | cons first rest ih =>
    obtain ⟨address, account⟩ := first
    rcases ih now with before | ⟨holder, held, member, same⟩
    · have entries := (put_effect documented storage (.account address account)).2
      rw [operate, entries] at before
      cases wrote : cacheWrite crates (.account address account) with
      | none =>
        rw [wrote] at before
        exact .inl before
      | some write =>
        rw [wrote] at before
        rcases Lru.mem_of_mem_put before with rfl | old
        · have pair : write = (cacheKey crates address, account) := by
            rw [cacheWrite] at wrote
            split at wrote
            · exact (Option.some.inj wrote).symm
            · cases wrote
          exact .inr ⟨address, account, List.mem_cons_self, pair⟩
        · exact .inl old
    · exact .inr ⟨holder, held, List.mem_cons_of_mem _ member, same⟩

omit [Database D] in
theorem mem_cache_restored {cacheSize : Nat} {listed : List (Address × Account)}
    {entry : Hash × Account}
    (now : entry ∈ crates.lru.iter (ran crates cacheSize (restoring listed)).cache) :
    ∃ address account, (address, account) ∈ listed ∧
      entry = (cacheKey crates address, account) := by
  rw [ran, restoring, List.foldl_append, List.foldl_cons, List.foldl_nil, operate,
    (commit_memory _).2.2.2] at now
  rcases mem_cache_puts documented now with initial | put
  · change entry ∈ crates.lru.iter (crates.lru.new cacheSize) at initial
    rw [documented.iter_new] at initial
    cases initial
  · exact put

end Sourced

end StateStorage

/-- The addresses that are put or read. -/
def handled (operations : List Operation) (reads : List Address) : Set Address :=
  {address | address ∈ reads ∨ ∃ account, .put (.account address account) ∈ operations}

/-- The accounts that a run has committed, and no others, are read from a fresh storage to
which a snapshot of them is applied, in whatever order they were listed. -/
theorem snapshot_restores {crates : StorageCrates} (documented : crates.lru.Documented)
    (accounts : crates.account.RoundTrips) (sourceSize targetSize : Nat)
    (operations : List Operation) (iterator : List (Bytes × Bytes)) (blockHeight timestamp : U64)
    (iterates : StateSnapshot.Iterates (ran crates sourceSize operations).db iterator) :
    ∃ snapshot, StateSnapshot.create (ran crates sourceSize operations) iterator blockHeight
        timestamp = some snapshot ∧
      let applied := snapshot.apply (StateStorage.new crates MemoryDB.new targetSize)
      applied.1 = .ok () ∧
        ∀ reads address,
          Set.InjOn (cacheKey crates) (handled operations (address :: reads)) →
          ∀ account, ((applied.2.afterReads reads).getAccount address).1 = some account ↔
            LastKept (Write.recordAt (.account address) Put.account?) (journal crates operations)
              account := by
  obtain ⟨listed, read, members⟩ := readAccounts_ran accounts iterates
  have written : ∀ address account, (address, account) ∈ listed →
      ∃ data, crates.account.serialize account = .ok data := fun address account member =>
    (put_of_stored accounts ((members address account).mp member)).2
  have unique : ∀ address account account', (address, account) ∈ listed →
      (address, account') ∈ listed → account = account' := by
    intro address account account' first second
    have held := (members address account).mp first
    rw [(members address account').mp second] at held
    exact (Option.some.inj held).symm
  have restored := stored_restored written accounts unique targetSize
  refine ⟨⟨blockHeight, _, listed, timestamp⟩, by rw [StateSnapshot.create, read]; rfl, ?_⟩
  intro applied
  have result : applied = (.ok (), ran crates targetSize (restoring listed)) :=
    apply_new written rfl targetSize
  rw [result]
  refine ⟨rfl, fun reads address apart account => ?_⟩
  -- the cache holds what was put, and the database holds it as well
  have sourced : (ran crates targetSize (restoring listed)).Sourced
      (handled operations (address :: reads)) := by
    intro entry now
    obtain ⟨holder, held, member, same⟩ := mem_cache_restored documented now
    have put := (put_of_stored accounts ((members holder held).mp member)).1
    rw [same]
    exact ⟨holder, .inr ⟨held, put⟩, rfl, (restored holder held).mpr member⟩
  rw [getAccount_afterReads documented apart sourced
    (fun address member => .inl (List.mem_cons_of_mem _ member)) (.inl List.mem_cons_self),
    restored, members, stored_ran accounts, lastKept_eq_some_iff]

namespace Sample

/-- Account 1 is put twice, and code under the same address. -/
def accountRun : List Operation :=
  [.put (.account (Sample.address 1) (Sample.funded 100)),
    .put (.contractCode (Sample.address 1) [1]),
    .put (.account (Sample.address 1) (Sample.funded 70)), .commit]

end Sample

theorem snapshot_restores_sample :
    ∃ iterator snapshot, StateSnapshot.create (ran Sample.crates 1 Sample.accountRun) iterator 7 0 =
        some snapshot ∧
      ((snapshot.apply (StateStorage.new Sample.crates MemoryDB.new 1)).2.getAccount
        (Sample.address 1)).1 = some (Sample.funded 70) := by
  obtain ⟨order, listing⟩ :=
    FiniteMap.listing_exists (ran Sample.crates 1 Sample.accountRun).db.data
  obtain ⟨snapshot, created, -, reads⟩ := snapshot_restores (Sample.lru_documented Hash Account)
    (Bincode.serde_roundTrips Bincode.account) 1 1 Sample.accountRun _ 7 0 ⟨order, listing, rfl⟩
  refine ⟨_, snapshot, created, ?_⟩
  refine (reads [] (Sample.address 1) Sample.cacheKey_injective.injOn _).mpr
    (lastKept_eq_some_iff.mp ?_)
  rfl

end ProtonChain.Storage
