import ProtonChain.Library.Runs
import ProtonChain.Storage.StateStorage

/-! Reads of accounts through the cache.

The storage is to behave like a map from addresses to the accounts put last. The
cache hides the difference between that map and the database as long as no entry
leaves it before the database has caught up.
-/

set_option autoImplicit false

namespace ProtonChain.Storage

namespace StateStorage

section Reads
variable {crates : StorageCrates} {D : Type} [Database D] (storage : StateStorage crates D)
  (address : Address)

def cached : Option Account :=
  (crates.lru.iter storage.cache).lookup (cacheKey crates address)

def stored : Option Account := storage.getRecord crates.account (accountKey address)

def read : Option Account := (storage.cached address).or (storage.stored address)

/-- What an entry for the address pushes out of the cache. -/
def displacedBy : List (Hash × Account) :=
  Lru.displaced (crates.lru.cap storage.cache) (crates.lru.iter storage.cache)
    (cacheKey crates address)

/-- An account entered for the address is seen there alone: no other address shares
its key, unless it reads the same, and what is displaced the database gives back. -/
structure Backed (account : Account) : Prop where
  unshared : ∀ other, other ≠ address → cacheKey crates other = cacheKey crates address →
    storage.read other = some account
  reloads : ∀ entry ∈ storage.displacedBy address, ∀ other, cacheKey crates other = entry.1 →
    storage.stored other = some entry.2

section Lookup
variable {storage address} (documented : crates.lru.Documented)
include documented

theorem getAccount_value : (storage.getAccount address).1 = storage.read address := by
  have answer := documented.get_value storage.cache (cacheKey crates address)
  rcases got : crates.lru.get storage.cache (cacheKey crates address) with ⟨hit, cache⟩
  rw [got] at answer
  simp only [getAccount, read, cached, stored, got, ← answer]
  cases hit with
  | some account => rfl
  | none => cases storage.getRecord crates.account (accountKey address) <;> rfl

omit documented in
theorem getAccount_db : (storage.getAccount address).2.db = storage.db := by
  rw [getAccount]
  split
  · rfl
  · split <;> rfl

omit documented in
theorem getAccount_pendingChanges :
    (storage.getAccount address).2.pendingChanges = storage.pendingChanges := by
  rw [getAccount]
  split
  · rfl
  · split <;> rfl

omit documented in
theorem getAccount_stored (other : Address) :
    (storage.getAccount address).2.stored other = storage.stored other := by
  unfold stored getRecord
  rw [getAccount_db]

theorem getAccount_cap :
    crates.lru.cap (storage.getAccount address).2.cache = crates.lru.cap storage.cache := by
  have cap := documented.cap_get storage.cache (cacheKey crates address)
  rcases got : crates.lru.get storage.cache (cacheKey crates address) with ⟨hit, cache⟩
  rw [got] at cap
  simp only [getAccount, got]
  cases hit with
  | some account => exact cap
  | none =>
    cases storage.getRecord crates.account (accountKey address) with
    | some account => exact (documented.cap_put _ _ _).trans cap
    | none => exact cap

theorem getAccount_cached (idle : storage.cached address ≠ none ∨ storage.stored address = none)
    (other : Address) : (storage.getAccount address).2.cached other = storage.cached other := by
  have answer := documented.get_value storage.cache (cacheKey crates address)
  have entries := documented.iter_get storage.cache (cacheKey crates address)
  rcases got : crates.lru.get storage.cache (cacheKey crates address) with ⟨hit, cache⟩
  rw [got] at answer entries
  have same : (crates.lru.iter cache).lookup (cacheKey crates other) = storage.cached other := by
    rw [entries, Lru.lookup_get]
    rfl
  cases hit with
  | some account =>
    simp only [getAccount, got]
    exact same
  | none =>
    have nowhere := idle.resolve_left (not_not_intro answer.symm)
    rw [stored] at nowhere
    simp only [getAccount, got, nowhere]
    exact same

theorem getAccount_loads {account : Account} (missing : storage.cached address = none)
    (found : storage.stored address = some account) :
    crates.lru.iter (storage.getAccount address).2.cache =
      Lru.put (crates.lru.cap storage.cache) (crates.lru.iter storage.cache)
        (cacheKey crates address) account := by
  have answer := documented.get_value storage.cache (cacheKey crates address)
  have entries := documented.iter_get storage.cache (cacheKey crates address)
  have cap := documented.cap_get storage.cache (cacheKey crates address)
  rcases got : crates.lru.get storage.cache (cacheKey crates address) with ⟨hit, cache⟩
  rw [got] at answer entries cap
  rw [cached] at missing
  rw [stored] at found
  obtain rfl : hit = none := answer.trans missing
  -- a miss leaves the entries in their order
  rw [Lru.get, missing] at entries
  simp only [getAccount, got, found]
  rw [documented.iter_put, entries, cap]

theorem mem_getAccount {entry : Hash × Account}
    (now : entry ∈ crates.lru.iter (storage.getAccount address).2.cache) :
    entry ∈ crates.lru.iter storage.cache ∨
      entry.1 = cacheKey crates address ∧ storage.stored address = some entry.2 := by
  have entries := documented.iter_get storage.cache (cacheKey crates address)
  rcases got : crates.lru.get storage.cache (cacheKey crates address) with ⟨hit, cache⟩
  rw [got] at entries
  have old : ∀ {entry}, entry ∈ crates.lru.iter cache → entry ∈ crates.lru.iter storage.cache := by
    intro entry member
    rw [entries] at member
    exact Lru.mem_of_mem_get member
  rw [stored]
  cases hit with
  | some account =>
    simp only [getAccount, got] at now
    exact .inl (old now)
  | none =>
    cases found : storage.getRecord crates.account (accountKey address) with
    | none =>
      simp only [getAccount, got, found] at now
      exact .inl (old now)
    | some account =>
      simp only [getAccount, got, found, documented.iter_put] at now
      rcases Lru.mem_of_mem_put now with rfl | before
      · exact .inr ⟨rfl, rfl⟩
      · exact .inl (old before)

end Lookup

section Written
variable {storage address} (documented : crates.lru.Documented)
  (positive : 1 ≤ crates.lru.cap storage.cache)
  (next : StateStorage crates D) {account : Account}
  (entries : crates.lru.iter next.cache = Lru.put (crates.lru.cap storage.cache)
    (crates.lru.iter storage.cache) (cacheKey crates address) account)
include documented positive entries

theorem written_read_self {other : Address}
    (same : cacheKey crates other = cacheKey crates address) : next.read other = some account := by
  have own : next.cached other = some account := by
    rw [cached, entries, Lru.lookup_put positive (documented.distinct _), if_pos same]
  rw [read, own, Option.some_or]

omit [Database D] in
theorem written_cached {other : Address}
    (different : cacheKey crates other ≠ cacheKey crates address) :
    next.cached other =
      if cacheKey crates other ∈ (storage.displacedBy address).map Prod.fst then none
      else storage.cached other := by
  rw [cached, entries, Lru.lookup_put positive (documented.distinct _), if_neg different]
  rfl

theorem written_reads_iff (kept : ∀ other, next.stored other = storage.stored other) :
    (∀ other, other ≠ address → next.read other = storage.read other) ↔
      storage.Backed address account := by
  have distinct := documented.distinct storage.cache
  constructor
  · intro reads
    constructor
    · intro other different shared
      rw [← reads other different]
      exact written_read_self documented positive next entries shared
    · intro entry gone other named
      obtain ⟨key, held⟩ := Lru.lookup_displaced distinct gone
      have different : cacheKey crates other ≠ cacheKey crates address := by
        rw [named]
        exact key
      have hit : storage.cached other = some entry.2 := by
        rw [cached, named, held]
      have missing : next.cached other = none := by
        rw [written_cached documented positive next entries different, named,
          if_pos (List.mem_map_of_mem gone)]
      have same := reads other fun own => different (congrArg _ own)
      rwa [read, read, missing, hit, Option.none_or, Option.some_or, kept] at same
  · intro backed other different
    by_cases shared : cacheKey crates other = cacheKey crates address
    · rw [written_read_self documented positive next entries shared,
        backed.unshared other different shared]
    · rw [read, read, written_cached documented positive next entries shared, kept]
      split
      next gone =>
        obtain ⟨entry, member, named⟩ := List.mem_map.mp gone
        have held := (Lru.lookup_displaced distinct member).2
        rw [cached, ← named, held, Option.none_or, Option.some_or]
        exact backed.reloads entry member other named.symm
      · rfl

end Written

end Reads

theorem commit_memory {crates : StorageCrates} (storage : StateStorage crates MemoryDB) :
    storage.commit.1 = .ok () ∧
      Database.get storage.commit.2.db =
        overlay (Database.get storage.db) storage.pendingChanges ∧
      storage.commit.2.pendingChanges = [] ∧ storage.commit.2.cache = storage.cache := by
  rw [commit]
  split
  next empty =>
    rw [List.isEmpty_iff] at empty
    rw [empty]
    exact ⟨rfl, rfl, rfl, rfl⟩
  · exact ⟨rfl, MemoryDB.get_batchWrite _ _, rfl, rfl⟩

end StateStorage

/-! ## Runs -/

inductive AccountCall where
  | put (address : Address) (account : Account)
  | get (address : Address)
  | commit

/-- A storage in memory next to the accounts that were put last. -/
structure AccountLog (crates : StorageCrates) where
  storage : StateStorage crates MemoryDB
  latest : Address → Option Account

namespace AccountLog

section Calls
variable {crates : StorageCrates}

def new (crates : StorageCrates) (cacheSize : Nat) : AccountLog crates :=
  ⟨StateStorage.new crates MemoryDB.new cacheSize, fun _ => none⟩

def call (log : AccountLog crates) :
    AccountCall → (Option Account ⊕ Except String Unit) × AccountLog crates
  | .put address account =>
    let (answer, storage) := log.storage.putAccount address account
    match answer with
    | .ok () => (.inr answer, ⟨storage, Function.update log.latest address (some account)⟩)
    | .error _ => (.inr answer, ⟨storage, log.latest⟩)
  | .get address =>
    let (account, storage) := log.storage.getAccount address
    (.inl account, ⟨storage, log.latest⟩)
  | .commit =>
    let (answer, storage) := log.storage.commit
    (.inr answer, ⟨storage, log.latest⟩)

def Current (log : AccountLog crates) : Prop :=
  ∀ address, (log.storage.getAccount address).1 = log.latest address

/-- An account that enters the cache, put or loaded, is backed. -/
def Retains (log : AccountLog crates) : AccountCall → Prop
  | .put address account => ∀ data, crates.account.serialize account = .ok data →
      log.storage.Backed address account
  | .get address => ∀ account, log.storage.cached address = none →
      log.storage.stored address = some account → log.storage.Backed address account
  | .commit => True

/-- The database with the pending changes holds the accounts put last. -/
structure Tracked (log : AccountLog crates) : Prop where
  positive : 1 ≤ crates.lru.cap log.storage.cache
  overlaid : ∀ address,
    (overlay (Database.get log.storage.db) log.storage.pendingChanges
      (StateStorage.accountKey address)).bind crates.account.deserialize = log.latest address

theorem current_iff (documented : crates.lru.Documented) (log : AccountLog crates) :
    log.Current ↔ ∀ address, log.storage.read address = log.latest address := by
  unfold Current
  simp only [StateStorage.getAccount_value documented]

section Step
variable (documented : crates.lru.Documented) (log : AccountLog crates) (tracked : log.Tracked)
  (current : log.Current)
include documented tracked current

theorem get_current_iff (address : Address) :
    (log.call (.get address)).2.Current ↔ log.Retains (.get address) := by
  rw [current_iff documented] at current ⊢
  change (∀ other, (log.storage.getAccount address).2.read other = log.latest other) ↔
    ∀ account, log.storage.cached address = none → log.storage.stored address = some account →
      log.storage.Backed address account
  simp only [← current]
  have kept : ∀ other, (log.storage.getAccount address).2.stored other =
      log.storage.stored other := StateStorage.getAccount_stored
  by_cases idle : log.storage.cached address ≠ none ∨ log.storage.stored address = none
  · have same := StateStorage.getAccount_cached documented idle
    refine iff_of_true (fun other => ?_) fun account missing found => ?_
    · rw [StateStorage.read, StateStorage.read, same, kept]
    · rcases idle with hit | nowhere
      · exact absurd missing hit
      · rw [nowhere] at found
        cases found
  · obtain ⟨hit, there⟩ := not_or.mp idle
    have missing : log.storage.cached address = none := not_not.mp hit
    obtain ⟨account, found⟩ := Option.ne_none_iff_exists'.mp there
    have entries := StateStorage.getAccount_loads documented missing found
    have backed := StateStorage.written_reads_iff documented tracked.positive _ entries kept
    constructor
    · intro reads loaded _ again
      obtain rfl := Option.some.inj (found.symm.trans again)
      exact backed.mp fun other _ => reads other
    · intro retains other
      by_cases own : other = address
      · rw [own, StateStorage.written_read_self documented tracked.positive _ entries rfl,
          StateStorage.read, missing, found, Option.none_or]
      · exact backed.mpr (retains account missing found) other own

omit documented tracked current in
theorem put_refused (address : Address) {account : Account} {message : String}
    (refused : crates.account.serialize account = .error message) :
    (log.call (.put address account)).2 = log := by
  simp only [call, StateStorage.putAccount, refused]

omit documented tracked current in
theorem put_accepted (address : Address) {account : Account} {data : Bytes}
    (written : crates.account.serialize account = .ok data) :
    (log.call (.put address account)).2 =
      ⟨log.storage.keepAccount address account data,
        Function.update log.latest address (some account)⟩ := by
  simp only [call, StateStorage.putAccount, written]

theorem put_current_iff (address : Address) (account : Account) :
    (log.call (.put address account)).2.Current ↔ log.Retains (.put address account) := by
  cases written : crates.account.serialize account with
  | error message =>
    rw [put_refused log address written]
    refine iff_of_true current fun data accepted => ?_
    rw [written] at accepted
    cases accepted
  | ok data =>
    rw [current_iff documented] at current ⊢
    rw [put_accepted log address written]
    change (∀ other, (log.storage.keepAccount address account data).read other =
      Function.update log.latest address (some account) other) ↔
        ∀ data, crates.account.serialize account = .ok data → log.storage.Backed address account
    have entries := documented.iter_put log.storage.cache
      (StateStorage.cacheKey crates address) account
    have backed := StateStorage.written_reads_iff documented tracked.positive
      (log.storage.keepAccount address account data) entries fun _ => rfl
    constructor
    · intro reads _ _
      refine backed.mp fun other different => ?_
      rw [reads other, Function.update_of_ne different, current]
    · intro retains other
      by_cases own : other = address
      · subst own
        rw [Function.update_self]
        exact StateStorage.written_read_self documented tracked.positive _ entries rfl
      · rw [backed.mpr (retains data written) other own, Function.update_of_ne own, current]

theorem commit_current : (log.call .commit).2.Current := by
  rw [current_iff documented] at current ⊢
  obtain ⟨-, contents, -, cache⟩ := log.storage.commit_memory
  change Database.get (log.call .commit).2.storage.db = _ at contents
  change (log.call .commit).2.storage.cache = _ at cache
  intro address
  have now := current address
  have hit : (log.call .commit).2.storage.cached address = log.storage.cached address := by
    unfold StateStorage.cached
    rw [cache]
  have loaded : (log.call .commit).2.storage.stored address = log.latest address := by
    rw [StateStorage.stored, StateStorage.getRecord, contents, tracked.overlaid]
  change _ = log.latest address
  rw [StateStorage.read] at now ⊢
  rw [hit, loaded]
  cases held : log.storage.cached address with
  | none => rfl
  | some account =>
    rw [held, Option.some_or] at now
    rw [Option.some_or, now]

end Step

theorem tracked_call (documented : crates.lru.Documented) (roundTrips : crates.account.RoundTrips)
    (log : AccountLog crates) (tracked : log.Tracked) (input : AccountCall) :
    (log.call input).2.Tracked := by
  cases input with
  | put address account =>
    cases written : crates.account.serialize account with
    | error message =>
      rw [put_refused log address written]
      exact tracked
    | ok data =>
      rw [put_accepted log address written]
      refine ⟨(documented.cap_put _ _ _).symm ▸ tracked.positive, fun other => ?_⟩
      change (overlay (Database.get log.storage.db) (log.storage.pendingChanges ++
          [(StateStorage.accountKey address, some data)]) (StateStorage.accountKey other)).bind
          crates.account.deserialize = Function.update log.latest address (some account) other
      rw [overlay_concat]
      by_cases own : other = address
      · subst own
        rw [if_pos rfl, Option.bind_some, roundTrips account data written, Function.update_self]
      · rw [if_neg fun same => own (StateStorage.accountKey_injective same),
          Function.update_of_ne own]
        exact tracked.overlaid other
  | get address =>
    constructor
    · change 1 ≤ crates.lru.cap (log.storage.getAccount address).2.cache
      rw [StateStorage.getAccount_cap documented]
      exact tracked.positive
    · change ∀ other, (overlay (Database.get (log.storage.getAccount address).2.db)
        (log.storage.getAccount address).2.pendingChanges _).bind _ = log.latest other
      rw [StateStorage.getAccount_db, StateStorage.getAccount_pendingChanges]
      exact tracked.overlaid
  | commit =>
    obtain ⟨-, contents, pending, cache⟩ := log.storage.commit_memory
    constructor
    · change 1 ≤ crates.lru.cap log.storage.commit.2.cache
      rw [cache]
      exact tracked.positive
    · change ∀ address, (overlay (Database.get log.storage.commit.2.db)
        log.storage.commit.2.pendingChanges _).bind _ = log.latest address
      rw [contents, pending]
      exact tracked.overlaid

theorem call_current_iff (documented : crates.lru.Documented) (log : AccountLog crates)
    (input : AccountCall) (tracked : log.Tracked) (current : log.Current) :
    (log.call input).2.Current ↔ log.Retains input := by
  cases input with
  | put address account => exact put_current_iff documented log tracked current address account
  | get address => exact get_current_iff documented log tracked current address
  | commit => exact iff_of_true (commit_current documented log tracked current) trivial

theorem new_tracked (documented : crates.lru.Documented) {cacheSize : Nat}
    (positive : 1 ≤ cacheSize) : (new crates cacheSize).Tracked :=
  ⟨(documented.cap_new cacheSize).symm ▸ positive, fun _ => rfl⟩

theorem new_current (documented : crates.lru.Documented) (cacheSize : Nat) :
    (new crates cacheSize).Current := by
  rw [current_iff documented]
  intro address
  rw [StateStorage.read, StateStorage.cached]
  change ((crates.lru.iter (crates.lru.new cacheSize)).lookup _).or none = none
  rw [documented.iter_new]
  rfl

end Calls

end AccountLog

/-- Along a run every address reads as the account put last exactly if nothing is
displaced from the cache that the database does not hold. -/
theorem coherence_iff (crates : StorageCrates) (documented : crates.lru.Documented)
    (roundTrips : crates.account.RoundTrips) (cacheSize : Nat)
    (positive : 1 ≤ cacheSize) (calls : List AccountCall) :
    Runs.Visits AccountLog.call AccountLog.Current (AccountLog.new crates cacheSize) calls ↔
      Runs.Meets AccountLog.call AccountLog.Retains (AccountLog.new crates cacheSize) calls := by
  have exact : ∀ (log : AccountLog crates) input, log.Tracked → log.Current → True →
      ((log.call input).2.Current ↔ log.Retains input) :=
    fun log input tracked current _ =>
      AccountLog.call_current_iff documented log input tracked current
  have keep : ∀ (log : AccountLog crates) input, log.Tracked → True → (log.call input).2.Tracked :=
    fun log input tracked _ => AccountLog.tracked_call documented roundTrips log tracked input
  have free :
      Runs.Meets AccountLog.call (fun _ _ => True) (AccountLog.new crates cacheSize) calls :=
    (Runs.meets_const _ _ _ _).mpr fun _ _ => trivial
  exact Runs.visits_iff_meets _ exact keep (AccountLog.new_current documented cacheSize)
    (AccountLog.new_tracked documented positive) calls free

namespace Sample

def funded (balance : U128) : Account := { Account.default with balance := balance }

end Sample

/-- An account that was committed may leave the cache. -/
theorem coherence_sample :
    Runs.Visits AccountLog.call AccountLog.Current (AccountLog.new Sample.crates 1)
      [.put (Sample.address 1) (Sample.funded 100), .commit,
        .put (Sample.address 2) (Sample.funded 5)] := by
  have apart := Sample.cacheKey_injective
  refine (coherence_iff Sample.crates (Sample.lru_documented Hash Account)
    (Bincode.serde_roundTrips Bincode.account) 1 (by decide) _).mpr ?_
  refine ⟨fun _ _ => ⟨fun _ different shared => absurd (apart shared) different, nofun⟩, trivial,
    fun _ _ => ⟨fun _ different shared => absurd (apart shared) different, ?_⟩, trivial⟩
  intro entry gone other named
  obtain rfl : entry = (StateStorage.cacheKey Sample.crates (Sample.address 1),
    Sample.funded 100) := List.mem_singleton.mp gone
  obtain rfl : other = Sample.address 1 := apart named
  decide

/-- With room for one account, the second put hides the first until the commit. -/
theorem eviction_hides_put :
    ¬ Runs.Visits AccountLog.call AccountLog.Current (AccountLog.new Sample.crates 1)
      [.put (Sample.address 1) (Sample.funded 100), .put (Sample.address 2) (Sample.funded 5)] := by
  intro visits
  have current := visits _ [] (List.append_nil _).symm (Sample.address 1)
  exact absurd current (by decide)

end ProtonChain.Storage
