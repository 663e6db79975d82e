import Mathlib.Data.List.Permutation
import Mathlib.Data.Set.Function
import ProtonChain.Library.Codec
import ProtonChain.Vm.Transfer

/-! The state root of the virtual machine.

The root is the digest of one record for each account, in iteration order: address,
balance and nonce. Records are all of one width, so the data gives back the records and
their order, and nothing but these.
-/

set_option autoImplicit false

namespace ProtonChain.Vm

def wideToLeBytes (value : U128) : Bytes := Codec.toBytes 16 value.toNat

/-- The buffer after the loop over the accounts. -/
def rootData (accountOrder : List (Address × Account)) : Bytes :=
  accountOrder.foldl (fun data entry =>
    data ++ entry.1.asBytes.toList ++ wideToLeBytes entry.2.balance ++ toLeBytes entry.2.nonce) []

/-- The order in which one call meets the accounts. -/
structure ProtonVM.Iteration (vm : ProtonVM) where
  accountOrder : List (Address × Account)
  accounts : FiniteMap.Listing vm.state.accounts accountOrder

def ProtonVM.stateRoot (sha3 : Sha3) (vm : ProtonVM) (iteration : vm.Iteration) : Hash :=
  Hash.new sha3 (rootData iteration.accountOrder)

/-- What the root of the machine may be the digest of. -/
def ProtonVM.rootMessages (vm : ProtonVM) : Set Bytes :=
  Set.range fun iteration : vm.Iteration => rootData iteration.accountOrder

/-! ## Records -/

/-- The fields of an account that enter the root. -/
def rootFields (account : Account) : U128 × U64 := (account.balance, account.nonce)

def rootRecord (entry : Address × Account) : Address × U128 × U64 := (entry.1, rootFields entry.2)

def recordCodec : Codec (Address × U128 × U64) :=
  .pair (.through (.array 20) Address.mk Address.asBytes fun _ => rfl) (.pair (.word 16) (.word 8))

theorem rootData_eq (accountOrder : List (Address × Account)) :
    rootData accountOrder = (accountOrder.map rootRecord).flatMap recordCodec.encode := by
  induction accountOrder using List.reverseRecOn with
  | nil => rfl
  | append_singleton accountOrder last ih =>
    rw [rootData, List.foldl_concat, ← rootData, ih, List.map_append, List.flatMap_append,
      List.map_singleton, List.flatMap_singleton, List.append_assoc, List.append_assoc]
    rfl

theorem recordCodec_filled (record : Address × U128 × U64) : recordCodec.encode record ≠ [] := by
  intro empty
  have address : record.1.asBytes.toList = [] := (List.append_eq_nil_iff.mp empty).1
  have width := record.1.asBytes.toList_length
  rw [address] at width
  cases width

theorem rootData_eq_iff (first second : List (Address × Account)) :
    rootData first = rootData second ↔ first.map rootRecord = second.map rootRecord := by
  rw [rootData_eq, rootData_eq]
  exact (Codec.flatMap_encode_injective recordCodec (fun _ => rfl) recordCodec_filled).eq_iff

section Records
variable {sha3 : Sha3} {vm other : ProtonVM}

/-- Without collisions equal roots are roots of equal records. -/
theorem stateRoot_eq_iff_records
    (free : Set.InjOn (Hash.new sha3) (vm.rootMessages ∪ other.rootMessages))
    (mine : vm.Iteration) (theirs : other.Iteration) :
    vm.stateRoot sha3 mine = other.stateRoot sha3 theirs ↔
      mine.accountOrder.map rootRecord = theirs.accountOrder.map rootRecord := by
  rw [← rootData_eq_iff]
  exact free.eq_iff (.inl ⟨mine, rfl⟩) (.inr ⟨theirs, rfl⟩)

theorem rootMessages_subset (same : other.state.accounts = vm.state.accounts) :
    other.rootMessages ⊆ vm.rootMessages := by
  rintro message ⟨⟨order, accounts⟩, rfl⟩
  rw [same] at accounts
  exact ⟨⟨order, accounts⟩, rfl⟩

theorem rootMessages_congr (same : other.state.accounts = vm.state.accounts) :
    other.rootMessages = vm.rootMessages :=
  Set.Subset.antisymm (rootMessages_subset same) (rootMessages_subset same.symm)

theorem rootMessages_of_card_le (few : vm.state.accounts.keys.card ≤ 1) (iteration : vm.Iteration) :
    vm.rootMessages = {rootData iteration.accountOrder} := by
  apply Set.eq_singleton_iff_unique_mem.mpr
  constructor
  · exact ⟨iteration, rfl⟩
  · rintro message ⟨again, rfl⟩
    exact congrArg rootData (again.accounts.eq_of_card_le iteration.accounts few)

end Records

/-! ## Two nodes with one state -/

def ProtonVM.RootAgreed (sha3 : Sha3) (vm : ProtonVM) : Prop :=
  ∀ other : ProtonVM, other.state.accounts = vm.state.accounts →
    other.state.contracts = vm.state.contracts → other.state.storage = vm.state.storage →
      ∀ (mine : vm.Iteration) (theirs : other.Iteration),
        vm.stateRoot sha3 mine = other.stateRoot sha3 theirs

section Agreement
variable {sha3 : Sha3} {vm : ProtonVM}

theorem rootAgreed_of_card_le (sha3 : Sha3) (few : vm.state.accounts.keys.card ≤ 1) :
    vm.RootAgreed sha3 := by
  intro other accounts _ _ mine theirs
  have listing := theirs.accounts
  rw [accounts] at listing
  rw [ProtonVM.stateRoot, mine.accounts.eq_of_card_le listing few, ProtonVM.stateRoot]

theorem card_le_of_rootAgreed (free : Set.InjOn (Hash.new sha3) vm.rootMessages)
    (agreed : vm.RootAgreed sha3) : vm.state.accounts.keys.card ≤ 1 := by
  obtain ⟨order, listing⟩ := FiniteMap.listing_exists vm.state.accounts
  rw [← listing.length_eq]
  match order, listing with
  | [], _ => exact Nat.zero_le 1
  | [_], _ => exact Nat.le_refl 1
  | first :: second :: rest, listing =>
    -- the first two accounts can be met the other way round
    let mine : vm.Iteration := ⟨first :: second :: rest, listing⟩
    let theirs : vm.Iteration :=
      ⟨second :: first :: rest, listing.of_perm (List.Perm.swap first second rest)⟩
    rw [← Set.union_self vm.rootMessages] at free
    have same := (stateRoot_eq_iff_records free mine theirs).mp
      (agreed vm rfl rfl rfl mine theirs)
    have heads : first.1 = second.1 := (Prod.mk.inj (List.cons.inj same).1).1
    have apart := (List.nodup_cons.mp listing.distinct).1
    rw [heads] at apart
    exact absurd List.mem_cons_self apart

theorem rootAgreed_iff (sha3 : Sha3) (vm : ProtonVM)
    (free : Set.InjOn (Hash.new sha3) vm.rootMessages) :
    vm.RootAgreed sha3 ↔ vm.state.accounts.keys.card ≤ 1 :=
  ⟨card_le_of_rootAgreed free, rootAgreed_of_card_le sha3⟩

end Agreement

namespace Sample

def single (balance : U128) : ProtonVM :=
  vm (Finmap.insert (Sample.address 1) (account balance) ∅)

def singleOrder (balance : U128) : (single balance).Iteration where
  accountOrder := [(Sample.address 1, account balance)]
  accounts := FiniteMap.listing_empty.insert _ Finmap.notMem_empty

theorem rootMessages_single (balance : U128) :
    (single balance).rootMessages = {rootData [(Sample.address 1, account balance)]} := by
  have few : (single balance).state.accounts.keys.card ≤ 1 := Nat.le_refl 1
  exact rootMessages_of_card_le few (singleOrder balance)

def twoAccounts : ProtonVM :=
  vm (Finmap.insert (Sample.address 2) (account 1000)
    (Finmap.insert (Sample.address 1) (account 1000) ∅))

def twoAccountsOrder : twoAccounts.Iteration where
  accountOrder := [(Sample.address 2, account 1000), (Sample.address 1, account 1000)]
  accounts := (FiniteMap.listing_empty.insert _ Finmap.notMem_empty).insert _ (by decide)

theorem rootMessages_twoAccounts :
    twoAccounts.rootMessages ⊆ {rootData twoAccountsOrder.accountOrder,
      rootData twoAccountsOrder.accountOrder.reverse} := by
  rintro message ⟨⟨order, listing⟩, rfl⟩
  rcases List.perm_pair.mp (listing.perm twoAccountsOrder.accounts) with rfl | rfl
  · exact .inl rfl
  · exact .inr rfl

end Sample

/-- One account is met in one order, and two of them in two. -/
theorem rootAgreed_sample :
    (Sample.single 1000).RootAgreed Sample.sha3 ∧
      (Sample.twoAccounts.RootAgreed Sample.sha3 ↔
        Sample.twoAccounts.state.accounts.keys.card ≤ 1) := by
  have free : Set.InjOn (Hash.new Sample.sha3) (Sample.single 1000).rootMessages := by
    rw [Sample.rootMessages_single]
    exact Set.injOn_singleton _ _
  have apart : Set.InjOn (Hash.new Sample.sha3) Sample.twoAccounts.rootMessages := by
    refine Set.InjOn.mono Sample.rootMessages_twoAccounts ?_
    have digests : Hash.new Sample.sha3 (rootData Sample.twoAccountsOrder.accountOrder) ≠
        Hash.new Sample.sha3 (rootData Sample.twoAccountsOrder.accountOrder.reverse) := by decide
    exact Set.injOn_pair.mpr fun same => absurd same digests
  exact ⟨(rootAgreed_iff Sample.sha3 (Sample.single 1000) free).mpr (by decide),
    rootAgreed_iff Sample.sha3 Sample.twoAccounts apart⟩

/-- The data starts with the account that the iterator meets first. -/
theorem two_accounts_disagree : ¬ Sample.twoAccounts.RootAgreed Sample.sha3 := by
  intro agreed
  have same := agreed Sample.twoAccounts rfl rfl rfl Sample.twoAccountsOrder
    ⟨_, Sample.twoAccountsOrder.accounts.reverse⟩
  exact absurd same (by decide)

/-! ## What the root commits to -/

/-- Machines with the same addresses meet them in the same order. -/
def SameOrder {vm other : ProtonVM} (mine : vm.Iteration) (theirs : other.Iteration) : Prop :=
  vm.state.accounts.keys = other.state.accounts.keys →
    mine.accountOrder.map Prod.fst = theirs.accountOrder.map Prod.fst

def ProtonVM.fieldsAt (vm : ProtonVM) (address : Address) : Option (U128 × U64) :=
  (vm.state.accounts.lookup address).map rootFields

section Commitment
variable {vm other : ProtonVM}

theorem mem_records (iteration : vm.Iteration) (address : Address) (fields : U128 × U64) :
    (address, fields) ∈ iteration.accountOrder.map rootRecord ↔
      vm.fieldsAt address = some fields := by
  rw [List.mem_map, ProtonVM.fieldsAt, Option.map_eq_some_iff]
  constructor
  · intro ⟨entry, member, same⟩
    obtain ⟨rfl, rfl⟩ := Prod.mk.inj same
    exact ⟨entry.2, (iteration.accounts.listed entry.1 entry.2).mp member, rfl⟩
  · intro ⟨account, found, same⟩
    subst same
    exact ⟨(address, account), (iteration.accounts.listed address account).mpr found, rfl⟩

/-- The records follow from the order of the addresses. -/
theorem records_eq (iteration : vm.Iteration) :
    iteration.accountOrder.map rootRecord =
      (iteration.accountOrder.map Prod.fst).map fun address =>
        (address, (vm.fieldsAt address).getD (0, 0)) := by
  rw [List.map_map]
  apply List.map_congr_left
  intro entry member
  have found := (iteration.accounts.listed entry.1 entry.2).mp member
  rw [Function.comp_apply, ProtonVM.fieldsAt, found]
  rfl

theorem keys_eq_of_fieldsAt (same : ∀ address, vm.fieldsAt address = other.fieldsAt address) :
    vm.state.accounts.keys = other.state.accounts.keys := by
  ext address
  have fields := congrArg Option.isSome (same address)
  rw [ProtonVM.fieldsAt, ProtonVM.fieldsAt, Option.isSome_map, Option.isSome_map] at fields
  rw [Finmap.mem_keys, Finmap.mem_keys, ← Finmap.lookup_isSome, ← Finmap.lookup_isSome, fields]

theorem stateRoot_eq_iff (sha3 : Sha3) (vm other : ProtonVM)
    (free : Set.InjOn (Hash.new sha3) (vm.rootMessages ∪ other.rootMessages))
    (mine : vm.Iteration) (theirs : other.Iteration) (order : SameOrder mine theirs) :
    vm.stateRoot sha3 mine = other.stateRoot sha3 theirs ↔
      ∀ address, vm.fieldsAt address = other.fieldsAt address := by
  rw [stateRoot_eq_iff_records free]
  constructor
  · intro same address
    apply Option.ext
    intro fields
    rw [← mem_records mine, ← mem_records theirs, same]
  · intro same
    rw [records_eq mine, records_eq theirs, order (keys_eq_of_fieldsAt same)]
    apply List.map_congr_left
    intro address _
    rw [same]

end Commitment

/-- Machines that differ in an account, a contract or a storage slot differ in the root. -/
def RootCommits (sha3 : Sha3) (vm other : ProtonVM) : Prop :=
  vm.state.accounts ≠ other.state.accounts ∨ vm.state.contracts ≠ other.state.contracts ∨
      vm.state.storage ≠ other.state.storage →
    ∀ (mine : vm.Iteration) (theirs : other.Iteration), SameOrder mine theirs →
      vm.stateRoot sha3 mine ≠ other.stateRoot sha3 theirs

namespace Sample

/-- The same account, but its address has contract code. -/
def withCode : ProtonVM where
  state :=
    { (single 1000).state with
      contracts := Finmap.singleton (Sample.address 1) ⟨[0], [], .wasm⟩ }
  gasSchedule := GasSchedule.default

def withCodeOrder : withCode.Iteration where
  accountOrder := (singleOrder 1000).accountOrder
  accounts := (singleOrder 1000).accounts

end Sample

theorem stateRoot_sample :
    (Sample.single 1000).stateRoot Sample.sha3 (Sample.singleOrder 1000) ≠
      (Sample.single 999).stateRoot Sample.sha3 (Sample.singleOrder 999) := by
  have free : Set.InjOn (Hash.new Sample.sha3)
      ((Sample.single 1000).rootMessages ∪ (Sample.single 999).rootMessages) := by
    rw [Sample.rootMessages_single, Sample.rootMessages_single, Set.singleton_union,
      Set.injOn_insert (by decide), Set.image_singleton]
    exact ⟨Set.injOn_singleton _ _, by decide⟩
  intro same
  have fields := (stateRoot_eq_iff Sample.sha3 (Sample.single 1000) (Sample.single 999) free
    (Sample.singleOrder 1000) (Sample.singleOrder 999) fun _ => rfl).mp same (Sample.address 1)
  exact absurd fields (by decide)

/-- The contracts are not part of the data. -/
theorem code_keeps_root :
    Set.InjOn (Hash.new Sample.sha3)
        ((Sample.single 1000).rootMessages ∪ Sample.withCode.rootMessages) ∧
      ¬ RootCommits Sample.sha3 (Sample.single 1000) Sample.withCode := by
  have same : Sample.withCode.rootMessages = (Sample.single 1000).rootMessages :=
    rootMessages_congr rfl
  rw [same, Set.union_self, Sample.rootMessages_single]
  refine ⟨Set.injOn_singleton _ _, fun commits => ?_⟩
  have differ : (Sample.single 1000).state.contracts ≠ Sample.withCode.state.contracts := by
    intro same
    have code := congrArg (Finmap.lookup (Sample.address 1)) same
    exact absurd code (by decide)
  exact commits (.inr (.inl differ)) (Sample.singleOrder 1000) Sample.withCodeOrder
    (fun _ => rfl) rfl

end ProtonChain.Vm
