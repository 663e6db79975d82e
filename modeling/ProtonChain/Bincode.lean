import ProtonChain.Library.Codec
import ProtonChain.Types

/-! The byte layout of the derived serializers: little-endian integers of fixed
width, a tag for each variant, a length before each vector.

The node takes its serializer as a parameter; this is the concrete one.
-/

set_option autoImplicit false

namespace ProtonChain

theorem toLeBytes_injective : Function.Injective toLeBytes := by
  intro first second same
  have values := congrArg Codec.ofBytes same
  change Codec.ofBytes (Codec.toBytes 8 first.toNat) = Codec.ofBytes (Codec.toBytes 8 second.toNat)
    at values
  rw [Codec.ofBytes_toBytes, Codec.ofBytes_toBytes] at values
  have firstBound := first.isLt
  have secondBound := second.isLt
  apply BitVec.eq_of_toNat_eq
  omega

/-- The two directions of the serializer for one type. -/
structure Serde (A : Type) where
  serialize : A → Except String Bytes
  deserialize : Bytes → Option A

def Serde.RoundTrips {A : Type} (serde : Serde A) : Prop :=
  ∀ value data, serde.serialize value = .ok data → serde.deserialize data = some value

def Serde.accepts {A : Type} (serde : Serde A) (value : A) : Bool := (serde.serialize value).isOk

namespace Bincode

def integer (width value : Nat) : Bytes :=
  (List.range width).map fun index => UInt8.ofNat (value / 256 ^ index)

def bytes (data : Bytes) : Bytes := integer 8 data.length ++ data

def option {A : Type} (encode : A → Bytes) : Option A → Bytes
  | none => [0]
  | some value => 1 :: encode value

/-- Newtypes of arrays carry no length. -/
def hash (value : Hash) : Bytes := value.asBytes.toList

def hashCodec : Codec Hash := .through (.array 32) Hash.mk Hash.asBytes fun _ => rfl

def address (value : Address) : Bytes := value.asBytes.toList

def stealthAddress (value : StealthAddress) : Bytes :=
  value.ephemeralPubkey.toList ++ value.encryptedViewTag.toList

def stealthCodec : Codec StealthAddress :=
  .through (.pair (.array 32) (.array 32))
    (fun (ephemeralPubkey, encryptedViewTag) => ⟨ephemeralPubkey, encryptedViewTag⟩)
    (fun value => (value.ephemeralPubkey, value.encryptedViewTag)) (fun _ => rfl)

def variantIndex : TransactionType → Nat
  | .transfer => 0
  | .contractDeploy => 1
  | .contractCall => 2
  | .stake => 3
  | .unstake => 4
  | .crossChain => 5
  | .privateTransfer => 6

def transaction (tx : Transaction) : Bytes :=
  integer 4 (variantIndex tx.txType) ++ integer 8 tx.nonce.toNat ++ address tx.sender ++
    option address tx.receiver ++ integer 16 tx.value.toNat ++ integer 16 tx.gasPrice.toNat ++
    integer 8 tx.gasLimit.toNat ++ bytes tx.data ++ integer 2 tx.shardId.toNat ++
    integer 8 tx.timestamp.toNat ++ bytes tx.signature ++
    option stealthAddress tx.stealthAddress ++ option bytes tx.zkProof ++
    option bytes tx.encryptedAmount

def header (value : BlockHeader) : Bytes :=
  integer 4 value.version.toNat ++ hash value.prevHash ++ hash value.merkleRoot ++
    hash value.stateRoot ++ integer 2 value.shardId.toNat ++ integer 8 value.height.toNat ++
    integer 8 value.timestamp.toNat ++ address value.validator ++ bytes value.signature ++
    integer 4 value.txCount.toNat ++ integer 8 value.gasUsed.toNat ++ bytes value.extraData

/-- Accounts, with the way back. -/
def account : Codec Account :=
  .through
    (.pair (.word 8) (.pair (.word 16) (.pair (.option hashCodec) (.pair hashCodec
      (.pair (.word 16) (.pair .bool (.pair (.option .bytes) (.option .bytes))))))))
    (fun (nonce, balance, codeHash, storageRoot, validatorStake, isContract, viewKey, spendKey) =>
      ⟨nonce, balance, codeHash, storageRoot, validatorStake, isContract, viewKey, spendKey⟩)
    (fun value => (value.nonce, value.balance, value.codeHash, value.storageRoot,
      value.validatorStake, value.isContract, value.viewKey, value.spendKey))
    (fun _ => rfl)

theorem address_mk_asBytes (value : Address) : Address.mk value.asBytes = value := rfl

def addressCodec : Codec Address :=
  .through (.array 20) Address.mk Address.asBytes address_mk_asBytes

def variantAt : Nat → Option TransactionType
  | 0 => some .transfer
  | 1 => some .contractDeploy
  | 2 => some .contractCall
  | 3 => some .stake
  | 4 => some .unstake
  | 5 => some .crossChain
  | 6 => some .privateTransfer
  | _ => none

/-- An index that names no variant is refused. -/
def variantCodec : Codec TransactionType where
  fits _ := true
  encode value := (Codec.word 4).encode (BitVec.ofNat _ (variantIndex value))
  decode data := ((Codec.word 4).decode data).bind fun (index, rest) =>
    (variantAt index.toNat).map fun value => (value, rest)
  decode_encode value rest _ := by
    rw [(Codec.word 4).decode_encode _ rest rfl, Option.bind_some]
    cases value <;> rfl

/-- Transactions, with the way back. -/
def transactionCodec : Codec Transaction :=
  .through
    (.pair variantCodec (.pair (.word 8) (.pair addressCodec (.pair (.option addressCodec)
      (.pair (.word 16) (.pair (.word 16) (.pair (.word 8) (.pair .bytes (.pair (.word 2)
        (.pair (.word 8) (.pair .bytes (.pair (.option stealthCodec) (.pair (.option .bytes)
          (.option .bytes))))))))))))))
    (fun (txType, nonce, sender, receiver, value, gasPrice, gasLimit, data, shardId, timestamp,
        signature, stealthAddress, zkProof, encryptedAmount) =>
      ⟨txType, nonce, sender, receiver, value, gasPrice, gasLimit, data, shardId, timestamp,
        signature, stealthAddress, zkProof, encryptedAmount⟩)
    (fun tx => (tx.txType, tx.nonce, tx.sender, tx.receiver, tx.value, tx.gasPrice, tx.gasLimit,
      tx.data, tx.shardId, tx.timestamp, tx.signature, tx.stealthAddress, tx.zkProof,
      tx.encryptedAmount))
    (fun _ => rfl)

/-- A serializer that refuses what its codec does not fit. -/
def serde {A : Type} (codec : Codec A) : Serde A where
  serialize value := if codec.fits value then .ok (codec.encode value) else .error "SizeLimit"
  deserialize data := (codec.decode data).map Prod.fst

theorem serde_roundTrips {A : Type} (codec : Codec A) : (serde codec).RoundTrips := by
  intro value data written
  simp only [serde] at written ⊢
  split at written
  next fits =>
    have back := codec.decode_encode value [] fits
    rw [List.append_nil] at back
    rw [← Except.ok.inj written, back, Option.map_some]
  · cases written

@[simp] theorem length_integer (width value : Nat) : (integer width value).length = width := by
  simp [integer]

theorem length_option_pos {A : Type} (encode : A → Bytes) (value : Option A) :
    1 ≤ (option encode value).length := by
  cases value with
  | none => exact Nat.le_refl 1
  | some value => exact Nat.le_add_left 1 _

/-- The fixed part alone is longer than two hashes. -/
theorem length_transaction (tx : Transaction) : 102 ≤ (transaction tx).length := by
  have receiver := length_option_pos address tx.receiver
  have stealth := length_option_pos stealthAddress tx.stealthAddress
  have proof := length_option_pos bytes tx.zkProof
  have amount := length_option_pos bytes tx.encryptedAmount
  have sender : (address tx.sender).length = 20 := tx.sender.asBytes.toList_length
  simp only [transaction, bytes, List.length_append, length_integer, sender] at *
  omega

end Bincode

end ProtonChain
