import ProtonChain.Bincode
import ProtonChain.Storage.Rollback

/-! The records of the storage and their keys.

Records of five kinds share one database. Each kind has its own prefix and width of
keys, so no two records are put under one key.
-/

set_option autoImplicit false

namespace ProtonChain.Storage

open StateStorage

/-- What a record is put under. -/
inductive RecordKey where
  | account (address : Address)
  | block (height : U64)
  | transaction (hash : Hash)
  | contractCode (address : Address)
  | storage (address : Address) (key : Hash)
  deriving DecidableEq

namespace RecordKey

def encode : RecordKey → Bytes
  | .account address => accountKey address
  | .block height => blockKey height
  | .transaction hash => txKey hash
  | .contractCode address => contractKey address
  | .storage address key => storageKey address key

/-- No two kinds have keys of one length. -/
def width : RecordKey → Nat
  | .account _ => 24
  | .block _ => 12
  | .transaction _ => 35
  | .contractCode _ => 25
  | .storage _ _ => 58

theorem length_encode (key : RecordKey) : key.encode.length = key.width := by
  cases key <;>
    simp [encode, width, accountKey, blockKey, txKey, contractKey, storageKey, toLeBytes]

theorem encode_ne_nil (key : RecordKey) : key.encode ≠ [] := by
  apply List.ne_nil_of_length_pos
  rw [length_encode]
  cases key <;> exact Nat.succ_pos _

theorem storageKey_inj {address address' : Address} {key key' : Hash}
    (same : storageKey address key = storageKey address' key') :
    address = address' ∧ key = key' := by
  have tails : address.asBytes.toList ++ (58 :: key.asBytes.toList) =
      address'.asBytes.toList ++ (58 :: key'.asBytes.toList) := by
    simpa only [storageKey, List.append_assoc, List.singleton_append, List.append_cancel_left_eq]
      using same
  have width : address.asBytes.toList.length = address'.asBytes.toList.length := by
    rw [List.Vector.toList_length, List.Vector.toList_length]
  obtain ⟨addresses, keys⟩ := List.append_inj tails width
  exact ⟨Address.eq_of_bytes addresses, Hash.eq_of_bytes (List.cons.inj keys).2⟩

theorem encode_injective : Function.Injective encode := by
  intro first second same
  have widths := congrArg List.length same
  rw [length_encode, length_encode] at widths
  cases first with
  | account address =>
    cases second with
    | account other => exact congrArg account (accountKey_injective same)
    | _ => simp [width] at widths
  | block height =>
    cases second with
    | block other =>
      exact congrArg block (toLeBytes_injective (List.append_cancel_left same))
    | _ => simp [width] at widths
  | transaction hash =>
    cases second with
    | transaction other =>
      exact congrArg transaction (Hash.eq_of_bytes (List.append_cancel_left same))
    | _ => simp [width] at widths
  | contractCode address =>
    cases second with
    | contractCode other =>
      exact congrArg contractCode (Address.eq_of_bytes (List.append_cancel_left same))
    | _ => simp [width] at widths
  | storage address key =>
    cases second with
    | storage address' key' =>
      obtain ⟨rfl, rfl⟩ := storageKey_inj same
      rfl
    | _ => simp [width] at widths

end RecordKey

namespace Put

def key (crates : StorageCrates) : Put → RecordKey
  | .account address _ => .account address
  | .block value => .block value.header.height
  | .transaction tx => .transaction (tx.hash crates.toCrates)
  | .contractCode address _ => .contractCode address
  | .storage address key _ => .storage address key

def data (crates : StorageCrates) : Put → Except String Bytes
  | .account _ value => crates.account.serialize value
  | .block value => crates.block.serialize value
  | .transaction tx => crates.transaction.serialize tx
  | .contractCode _ code => .ok code
  | .storage _ _ value => .ok value

end Put

/-! ## Puts -/

namespace StateStorage

variable {crates : StorageCrates} {D : Type} (storage : StateStorage crates D)

theorem putRecord_changes {A : Type} (serde : Serde A) (key : Bytes) (value : A) :
    (storage.putRecord serde key value).2.pendingChanges =
      match serde.serialize value with
      | .ok data => storage.pendingChanges ++ [(key, some data)]
      | .error _ => storage.pendingChanges := by
  rw [putRecord]
  cases serde.serialize value <;> rfl

theorem put_changes (put : Put) :
    (storage.put put).2.pendingChanges =
      match put.data crates with
      | .ok data => storage.pendingChanges ++ [((put.key crates).encode, some data)]
      | .error _ => storage.pendingChanges := by
  cases put with
  | account address account =>
    rw [StateStorage.put, putAccount, Put.data]
    cases crates.account.serialize account <;> rfl
  | block block => exact storage.putRecord_changes crates.block _ block
  | transaction tx => exact storage.putRecord_changes crates.transaction _ tx
  | contractCode address code => rfl
  | storage address key value => rfl

end StateStorage

end ProtonChain.Storage
