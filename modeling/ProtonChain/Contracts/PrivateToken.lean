import ProtonChain.Library.Checked
import ProtonChain.Library.Codec
import ProtonChain.Library.Transactions
import ProtonChain.Sdk.Collections

/-! The private token of the chain itself.

The spent nullifiers are a set of the contract's store, where the public balances lie too, under
keys of another form. Arithmetic that overflows ends the call, and a call that ends so is rolled
back. The JSON texts of hashes are a parameter.
-/

set_option autoImplicit false

namespace ProtonChain.Contracts

open Checked
open Sdk.Serialize (toVec)

structure PrivateToken where
  totalSupply : U128
  merkleRoot : Hash
  nullifiers : Sdk.Set Hash

inductive PrivateTokenPanic where
  | unwrapErr
  deriving DecidableEq, Repr

structure PrivateTokenHost (World : Type) where
  sha3 : Sha3
  callerIsOwner : World → Address → Bool
  verifyZk : World → Bytes → Hash → Hash → Hash → Bool

namespace PrivateToken

def new : PrivateToken where
  totalSupply := 0
  merkleRoot := Hash.zero
  nullifiers := {}

structure State (World : Type) where
  token : PrivateToken
  storage : Sdk.Storage
  world : World

/-- The address after the bytes of `bal:`. -/
def balanceKey (address : Address) : Bytes := [98, 97, 108, 58] ++ address.asBytes.toList

def getPublicBalance (storage : Sdk.Storage) (account : Address) : U128 :=
  let data := (Sdk.storageGet (balanceKey account) storage).getD []
  if 16 ≤ data.length then BitVec.ofNat 128 (Codec.ofBytes (data.take 16)) else 0

def updateMerkleRoot (sha3 : Sha3) (current commitment : Hash) : Hash :=
  Hash.new sha3 (current.asBytes.toList ++ commitment.asBytes.toList)

/-! ## Calls -/

section Calls
variable {World : Type} (host : PrivateTokenHost World) (caller : Address) (state : State World)

/-- `receiver` is the source's `to`. -/
def mint (receiver : Address) (amount : U128) : Outcome PrivateTokenPanic (State World) := do
  ensure (host.callerIsOwner state.world caller) (.reason "Only owner can mint")
  let totalSupply ← add state.token.totalSupply amount
  let balance ← add (getPublicBalance state.storage receiver) amount
  return { state with
    token := { state.token with totalSupply := totalSupply }
    storage :=
      Sdk.storageSet (balanceKey receiver) (Codec.toBytes 16 balance.toNat) state.storage }

variable [Sdk.SerializeKey Hash]

def privateTransfer (proof : Bytes) (nullifier commitment root : Hash) :
    Outcome PrivateTokenPanic (State World) := do
  ensure (host.verifyZk state.world proof nullifier commitment root) (.reason "Invalid ZK proof")
  let spent ← demand (.raised .unwrapErr) (state.token.nullifiers.contains nullifier state.storage)
  ensure (¬ spent) (.reason "Nullifier already spent")
  ensure (root = state.token.merkleRoot) (.reason "Invalid merkle root")
  let storage ←
    demand (.raised .unwrapErr) (state.token.nullifiers.insert nullifier state.storage)
  return { state with
    token := { state.token with
      merkleRoot := updateMerkleRoot host.sha3 state.token.merkleRoot commitment }
    storage := storage }

end Calls

/-! ## Runs -/

inductive Call where
  | mint (receiver : Address) (amount : U128)
  | privateTransfer (proof : Bytes) (nullifier commitment root : Hash)

inductive Input (World : Type) where
  | call (caller : Address) (call : Call)
  | outside (world : World)

section Runs
variable {World : Type} [Sdk.SerializeKey Hash] (host : PrivateTokenHost World)

def perform (state : State World) : Input World → Outcome PrivateTokenPanic (State World)
  | .call caller (.mint receiver amount) => mint host caller state receiver amount
  | .call _ (.privateTransfer proof nullifier commitment root) =>
    privateTransfer host state proof nullifier commitment root
  | .outside world => .ok { state with world := world }

def step : State World → Input World → Except (Fault PrivateTokenPanic) Unit × State World :=
  Transactions.step (perform host)

end Runs

/-! ## Spent nullifiers -/

section Spent
variable {World : Type} {host : PrivateTokenHost World} {caller : Address}
  {state next : State World}

theorem mint_eq_ok {receiver : Address} {amount : U128}
    (minted : mint host caller state receiver amount = .ok next) :
    ∃ value, next.storage = Sdk.storageSet (balanceKey receiver) value state.storage := by
  simp only [mint, bind_eq_ok, pure_eq_ok, ensure_eq_ok] at minted
  obtain ⟨-, -, totalSupply, -, balance, -, rfl⟩ := minted
  exact ⟨_, rfl⟩

theorem storageGet_isSome_storageSet {storage : Sdk.Storage} {key : Bytes}
    (present : (Sdk.storageGet key storage).isSome = true) (other value : Bytes) :
    (Sdk.storageGet key (Sdk.storageSet other value storage)).isSome = true := by
  rw [Sdk.storageGet, Sdk.storageSet, FiniteMap.lookup_insert]
  split
  · rfl
  · exact present

variable [Sdk.SerializeKey Hash]

def Spent (nullifier : Hash) (state : State World) : Prop :=
  state.token.nullifiers.contains nullifier state.storage = some true

/-- A mark lies under the text of its nullifier. -/
theorem spent_iff (nullifier : Hash) (state : State World) :
    Spent nullifier state ↔
      ∃ name, toVec nullifier = some name ∧ (Sdk.storageGet name state.storage).isSome = true := by
  rw [Spent]
  cases named : (toVec nullifier : Option Bytes) with
  | none => simp [state.token.nullifiers.contains_of_refused named]
  | some name => simp [state.token.nullifiers.contains_eq named]

theorem privateTransfer_eq_ok {proof : Bytes} {nullifier commitment root : Hash}
    (transferred : privateTransfer host state proof nullifier commitment root = .ok next) :
    host.verifyZk state.world proof nullifier commitment root = true ∧
      ¬ Spent nullifier state ∧ root = state.token.merkleRoot ∧
      next.token.merkleRoot = updateMerkleRoot host.sha3 state.token.merkleRoot commitment ∧
      ∃ name, toVec nullifier = some name ∧
        next.storage = Sdk.storageSet name [1] state.storage := by
  simp only [privateTransfer, bind_eq_ok, pure_eq_ok, ensure_eq_ok, demand_eq_ok] at transferred
  obtain ⟨-, proved, spent, contained, -, fresh, -, current, storage, inserted, rfl⟩ := transferred
  obtain ⟨name, named, written⟩ := Option.bind_eq_some_iff.mp inserted
  refine ⟨proved, ?_, current, rfl, name, named, (Option.some.inj written).symm⟩
  rw [Spent, contained, Option.some.injEq]
  exact fresh

theorem spent_keeps {nullifier : Hash} {input : Input World} (spent : Spent nullifier state)
    (performed : perform host state input = .ok next) : Spent nullifier next := by
  rw [spent_iff] at spent ⊢
  obtain ⟨name, named, spent⟩ := spent
  refine ⟨name, named, ?_⟩
  cases input with
  | outside world =>
    obtain rfl := Except.ok.inj performed
    exact spent
  | call caller request =>
    cases request with
    | mint receiver amount =>
      obtain ⟨value, written⟩ := mint_eq_ok performed
      rw [written]
      exact storageGet_isSome_storageSet spent _ _
    | privateTransfer proof other commitment root =>
      obtain ⟨-, -, -, -, _, -, written⟩ := privateTransfer_eq_ok performed
      rw [written]
      exact storageGet_isSome_storageSet spent _ _

theorem spent_of_privateTransfer {proof : Bytes} {nullifier commitment root : Hash}
    (transferred : privateTransfer host state proof nullifier commitment root = .ok next) :
    Spent nullifier next := by
  obtain ⟨-, -, -, -, name, named, written⟩ := privateTransfer_eq_ok transferred
  refine (spent_iff nullifier next).mpr ⟨name, named, ?_⟩
  rw [written, Sdk.storageGet, Sdk.storageSet, Finmap.lookup_insert]
  rfl

theorem spent_run {nullifier : Hash} (spent : Spent nullifier state)
    (inputs : List (Input World)) :
    Spent nullifier (Runs.run (step host) state inputs).2 :=
  Transactions.run_keeps (fun _ _ _ => spent_keeps) spent inputs

theorem privateTransfer_of_spent {proof : Bytes} {nullifier commitment root : Hash}
    (spent : Spent nullifier state)
    (proved : host.verifyZk state.world proof nullifier commitment root = true) :
    privateTransfer host state proof nullifier commitment root =
      .error (.reason "Nullifier already spent") := by
  rw [Spent] at spent
  rw [privateTransfer, spent, proved]
  rfl

end Spent

end PrivateToken

end ProtonChain.Contracts
