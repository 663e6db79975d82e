import Mathlib.Data.Finsupp.Weight
import ProtonChain.Contracts.PrivateToken
import ProtonChain.Library.Simulation

/-! The private token as a ledger.

The ledger has a balance for each address, the spent nullifiers and the root, and no total supply
of its own: that is the sum of the balances. The contract keeps all of it in bytes under keys of
one store, and does what the ledger does.
-/

set_option autoImplicit false

namespace ProtonChain.Contracts.PrivateToken

open Checked
open Sdk.Serialize (toVec)

structure Ledger (World : Type) where
  balances : Address →₀ ℕ
  spent : Finset Hash
  root : Hash
  world : World

namespace Ledger

variable {World : Type} (host : PrivateTokenHost World)

def empty (world : World) : Ledger World := ⟨0, ∅, Hash.zero, world⟩

/-- A mint adds to one balance, as long as the sum of all of them fits the supply's word. -/
noncomputable def mint (caller : Address) (ledger : Ledger World) (receiver : Address)
    (amount : U128) : Outcome PrivateTokenPanic (Ledger World) := do
  ensure (host.callerIsOwner ledger.world caller = true) (.reason "Only owner can mint")
  ensure (ledger.balances.degree + amount.toNat < 2 ^ 128) .overflow
  return { ledger with balances := ledger.balances + Finsupp.single receiver amount.toNat }

def privateTransfer (ledger : Ledger World) (proof : Bytes) (nullifier commitment root : Hash) :
    Outcome PrivateTokenPanic (Ledger World) := do
  ensure (host.verifyZk ledger.world proof nullifier commitment root = true)
    (.reason "Invalid ZK proof")
  ensure (nullifier ∉ ledger.spent) (.reason "Nullifier already spent")
  ensure (root = ledger.root) (.reason "Invalid merkle root")
  return { ledger with
    spent := insert nullifier ledger.spent
    root := updateMerkleRoot host.sha3 ledger.root commitment }

noncomputable def perform (ledger : Ledger World) :
    Input World → Outcome PrivateTokenPanic (Ledger World)
  | .call caller (.mint receiver amount) => mint host caller ledger receiver amount
  | .call _ (.privateTransfer proof nullifier commitment root) =>
    privateTransfer host ledger proof nullifier commitment root
  | .outside world => .ok { ledger with world := world }

noncomputable def step :
    Ledger World → Input World → Except (Fault PrivateTokenPanic) Unit × Ledger World :=
  Transactions.step (perform host)

end Ledger

/-! ## Keys of the store -/

section Keys

theorem balanceKey_injective : Function.Injective balanceKey := by
  intro first second same
  exact Address.eq_of_bytes (List.append_cancel_left same)

/-- What the texts of hashes are relied on for, beside that they differ: there always is one, and
no balance lies under it. -/
structure MarksApart [Sdk.SerializeKey Hash] : Prop where
  encoded : ∀ nullifier : Hash, ∃ name, toVec nullifier = some name
  apart : ∀ (nullifier : Hash) (account : Address), toVec nullifier ≠ some (balanceKey account)

theorem getPublicBalance_set_of_ne (storage : Sdk.Storage) {account : Address} {name : Bytes}
    (apart : balanceKey account ≠ name) (value : Bytes) :
    getPublicBalance (Sdk.storageSet name value storage) account =
      getPublicBalance storage account := by
  rw [getPublicBalance, Sdk.storageGet, Sdk.storageSet, FiniteMap.lookup_insert, if_neg apart]
  rfl

/-- Sixteen bytes are read back as the word that was written. -/
theorem getPublicBalance_set (storage : Sdk.Storage) (receiver account : Address)
    (balance : U128) :
    getPublicBalance (Sdk.storageSet (balanceKey receiver) (Codec.toBytes 16 balance.toNat) storage)
        account =
      if account = receiver then balance else getPublicBalance storage account := by
  have length := Codec.length_toBytes 16 balance.toNat
  have digits : (Codec.toBytes 16 balance.toNat).take 16 = Codec.toBytes 16 balance.toNat :=
    List.take_of_length_le length.le
  have small : balance.toNat < 256 ^ 16 := by
    have below := balance.isLt
    have bound : (2 : Nat) ^ 128 = 256 ^ 16 := by norm_num
    rwa [bound] at below
  by_cases same : account = receiver
  · subst same
    rw [getPublicBalance, Sdk.storageGet, Sdk.storageSet, Finmap.lookup_insert, if_pos rfl,
      Option.getD_some, if_pos length.ge, digits, Codec.ofBytes_toBytes, Nat.mod_eq_of_lt small,
      BitVec.ofNat_toNat, BitVec.setWidth_eq]
  · rw [if_neg same]
    exact getPublicBalance_set_of_ne storage (fun keys => same (balanceKey_injective keys)) _

end Keys

/-! ## The contract as the ledger -/

section Refinement
variable {World : Type} [Sdk.SerializeKey Hash] (host : PrivateTokenHost World)

/-- The state in bytes stands for the ledger. -/
structure Represents (state : State World) (ledger : Ledger World) : Prop where
  supply : state.token.totalSupply.toNat = ledger.balances.degree
  balances : ∀ account,
    (getPublicBalance state.storage account).toNat = ledger.balances account
  spent : ∀ nullifier, Spent nullifier state ↔ nullifier ∈ ledger.spent
  root : state.token.merkleRoot = ledger.root
  world : state.world = ledger.world

theorem represents_new (world : World) : Represents ⟨new, ∅, world⟩ (Ledger.empty world) where
  supply := by simp [new, Ledger.empty]
  balances account := by simp [getPublicBalance, Sdk.storageGet, Ledger.empty]
  spent nullifier := by simp [spent_iff, Sdk.storageGet, Ledger.empty]
  root := rfl
  world := rfl

variable {host} {state : State World} {ledger : Ledger World}

theorem spent_set_balanceKey (marks : MarksApart) (account : Address) (value : Bytes)
    (nullifier : Hash) (token : PrivateToken) :
    Spent nullifier { state with
        token := token
        storage := Sdk.storageSet (balanceKey account) value state.storage } ↔
      Spent nullifier state := by
  rw [spent_iff, spent_iff]
  refine exists_congr fun name => and_congr_right fun named => ?_
  have apart : name ≠ balanceKey account := by
    rintro rfl
    exact marks.apart nullifier account named
  rw [Sdk.storageGet, Sdk.storageSet, FiniteMap.lookup_insert, if_neg apart]
  rfl

theorem spent_set_mark {nullifier : Hash} {name : Bytes} (named : toVec nullifier = some name)
    (value : Bytes) (other : Hash) (token : PrivateToken) :
    Spent other { state with
        token := token
        storage := Sdk.storageSet name value state.storage } ↔
      other = nullifier ∨ Spent other state := by
  rw [spent_iff, spent_iff]
  by_cases same : other = nullifier
  · subst same
    refine iff_of_true ⟨name, named, ?_⟩ (.inl rfl)
    rw [Sdk.storageGet, Sdk.storageSet, Finmap.lookup_insert]
    rfl
  · rw [or_iff_right same]
    refine exists_congr fun name' => and_congr_right fun named' => ?_
    have apart : name' ≠ name := by
      rintro rfl
      exact same (Sdk.SerializeKey.toVec_inj named' named)
    rw [Sdk.storageGet, Sdk.storageSet, FiniteMap.lookup_insert, if_neg apart]
    rfl

theorem mint_alike (marks : MarksApart) (represents : Represents state ledger)
    (caller receiver : Address) (amount : U128) :
    Simulation.Alike Represents (mint host caller state receiver amount)
      (Ledger.mint host caller ledger receiver amount) := by
  rw [mint, Ledger.mint, represents.world]
  refine Simulation.alike_ensure Iff.rfl fun _ => ?_
  refine Simulation.alike_add (by rw [represents.supply]) fun fits => ?_
  -- the balance is part of the supply, so it fits where the supply does
  have part := Finsupp.le_degree receiver ledger.balances
  rw [← represents.balances, ← represents.supply] at part
  have room : (getPublicBalance state.storage receiver).toNat + amount.toNat < 2 ^ 128 := by omega
  rw [add, if_pos room]
  refine Simulation.alike_ok ⟨?_, fun account => ?_, fun nullifier => ?_, represents.root, rfl⟩
  · rw [map_add, Finsupp.degree_single, ← represents.supply]
    exact BitVec.toNat_add_of_lt fits
  · rw [getPublicBalance_set, Finsupp.add_apply, Finsupp.single_apply]
    by_cases same : account = receiver
    · subst same
      rw [if_pos rfl, if_pos rfl, BitVec.toNat_add_of_lt room, represents.balances]
    · rw [if_neg same, if_neg (Ne.symm same), represents.balances, Nat.add_zero]
  · rw [← represents.spent]
    exact spent_set_balanceKey marks receiver _ nullifier _

theorem privateTransfer_alike (marks : MarksApart) (represents : Represents state ledger)
    (proof : Bytes) (nullifier commitment root : Hash) :
    Simulation.Alike Represents (privateTransfer host state proof nullifier commitment root)
      (Ledger.privateTransfer host ledger proof nullifier commitment root) := by
  obtain ⟨name, named⟩ := marks.encoded nullifier
  have contained := state.token.nullifiers.contains_eq named state.storage
  have inserted : state.token.nullifiers.insert nullifier state.storage =
      some (Sdk.storageSet name [1] state.storage) := by
    simp only [Sdk.Set.insert, named, Option.bind_eq_bind, Option.bind_some, Option.pure_def]
  have known := represents.spent nullifier
  rw [Spent, contained, Option.some.injEq] at known
  rw [privateTransfer, Ledger.privateTransfer, represents.world, contained, inserted]
  refine Simulation.alike_ensure Iff.rfl fun _ => ?_
  rw [demand, ok_bind]
  refine Simulation.alike_ensure (not_congr known) fun fresh => ?_
  refine Simulation.alike_ensure (by rw [represents.root]) fun _ => ?_
  refine Simulation.alike_ok ⟨represents.supply, fun account => ?_, fun other => ?_, ?_, rfl⟩
  · rw [getPublicBalance_set_of_ne]
    · exact represents.balances account
    · rintro rfl
      exact marks.apart nullifier account named
  · rw [Finset.mem_insert, ← represents.spent]
    exact spent_set_mark named [1] other _
  · rw [represents.root]

theorem perform_alike (marks : MarksApart) (represents : Represents state ledger)
    (input : Input World) :
    Simulation.Alike Represents (perform host state input) (Ledger.perform host ledger input) := by
  cases input with
  | outside world =>
    exact Simulation.alike_ok
      ⟨represents.supply, represents.balances, represents.spent, represents.root, rfl⟩
  | call caller request =>
    cases request with
    | mint receiver amount => exact mint_alike marks represents caller receiver amount
    | privateTransfer proof nullifier commitment root =>
      exact privateTransfer_alike marks represents proof nullifier commitment root

end Refinement

/-- Over every run from an empty store, the contract answers as the ledger does and ends in a state
that stands for the ledger's, where marks and balances lie apart. So the total supply is the sum of
the public balances that the store holds, and no private transfer changes any of them. -/
theorem token_refines_ledger {World : Type} [Sdk.SerializeKey Hash] (marks : MarksApart)
    (host : PrivateTokenHost World) (world : World) (inputs : List (Input World)) :
    (Runs.run (step host) ⟨new, ∅, world⟩ inputs).1 =
        (Runs.run (Ledger.step host) (Ledger.empty world) inputs).1 ∧
      Represents (Runs.run (step host) ⟨new, ∅, world⟩ inputs).2
        (Runs.run (Ledger.step host) (Ledger.empty world) inputs).2 :=
  Simulation.run_alike (fun _ _ input represents => perform_alike marks represents input)
    (represents_new world) inputs

namespace Sample

/-- The text of a hash begins with a bracket. -/
theorem marksApart : MarksApart where
  encoded _ := ⟨_, rfl⟩
  apart nullifier account same := by
    have bracket := (List.cons.inj (Option.some.inj same)).1
    exact absurd bracket (by decide)

/-- Everybody is the owner, and every proof is accepted. -/
def host : PrivateTokenHost Unit where
  sha3 := Sample.sha3
  callerIsOwner _ _ := true
  verifyZk _ _ _ _ _ := true

/-- Two mints for one address, and a nullifier spent twice. -/
def inputs : List (Input Unit) :=
  [.call (Sample.address 9) (.mint (Sample.address 3) 100),
    .call (Sample.address 9) (.mint (Sample.address 3) 50),
    .call (Sample.address 3) (.privateTransfer [] Hash.zero Hash.zero Hash.zero),
    .call (Sample.address 3) (.privateTransfer [] Hash.zero Hash.zero Hash.zero)]

end Sample

theorem token_refines_ledger_sample :
    (Runs.run (step Sample.host) ⟨new, ∅, ()⟩ Sample.inputs).1 =
        (Runs.run (Ledger.step Sample.host) (Ledger.empty ()) Sample.inputs).1 ∧
      Represents (Runs.run (step Sample.host) ⟨new, ∅, ()⟩ Sample.inputs).2
        (Runs.run (Ledger.step Sample.host) (Ledger.empty ()) Sample.inputs).2 :=
  token_refines_ledger Sample.marksApart Sample.host () Sample.inputs

end ProtonChain.Contracts.PrivateToken
