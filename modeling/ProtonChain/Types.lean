import Mathlib.Data.Finmap
import Mathlib.Data.Vector.Basic
import Mathlib.Order.Lex
import Mathlib.Data.List.Lex
import Mathlib.Order.Defs.LinearOrder
import ProtonChain.Library.Pairing

/-! Chain data: hashes, addresses, transactions, blocks, accounts and the Merkle root.

Machine integers are bit vectors, so arithmetic wraps as it does in the release
profile and an `as` cast between equally wide integers keeps the bits. A signed
word is the same vector read through `toInt`. Third-party functions (SHA3,
bincode, secp256k1) are parameters.
-/

set_option autoImplicit false

namespace ProtonChain

abbrev U16 := BitVec 16
abbrev U32 := BitVec 32
abbrev U64 := BitVec 64
abbrev U128 := BitVec 128
abbrev I64 := BitVec 64
abbrev I128 := BitVec 128
abbrev Bytes := List UInt8

/-- Entry order is not part of the value: equality is equality of lookups. -/
abbrev HashMap (K V : Type) := Finmap fun _ : K => V
abbrev BTreeMap (K V : Type) := Finmap fun _ : K => V

/-- `u64::to_le_bytes`. -/
def toLeBytes (value : U64) : Bytes :=
  (List.range 8).map fun index => UInt8.ofNat (value.toNat / 256 ^ index)

/-- The SHA3-256 digest of a byte string. -/
abbrev Sha3 := Bytes → List.Vector UInt8 32

structure Hash where
  asBytes : List.Vector UInt8 32
  deriving DecidableEq

namespace Hash

def new (sha3 : Sha3) (data : Bytes) : Hash := ⟨sha3 data⟩

def zero : Hash := ⟨List.Vector.replicate 32 0⟩

theorem eq_of_bytes {first second : Hash}
    (bytes : first.asBytes.toList = second.asBytes.toList) : first = second := by
  cases first
  cases second
  exact congrArg Hash.mk (List.Vector.eq _ _ bytes)

end Hash

structure Address where
  asBytes : List.Vector UInt8 20
  deriving DecidableEq

namespace Address

/-- Bytes 12 to 31 of the hash of the public key. -/
def new (sha3 : Sha3) (pubkey : Bytes) : Address :=
  ⟨(Hash.new sha3 pubkey).asBytes.drop 12⟩

theorem eq_of_bytes {first second : Address}
    (bytes : first.asBytes.toList = second.asBytes.toList) : first = second := by
  cases first
  cases second
  exact congrArg Address.mk (List.Vector.eq _ _ bytes)

end Address

structure StealthAddress where
  ephemeralPubkey : List.Vector UInt8 32
  encryptedViewTag : List.Vector UInt8 32
  deriving DecidableEq

inductive TransactionType where
  | transfer
  | contractDeploy
  | contractCall
  | stake
  | unstake
  | crossChain
  | privateTransfer
  deriving DecidableEq, Repr

/-- `sender` and `receiver` are the source's `from` and `to`. -/
structure Transaction where
  txType : TransactionType
  nonce : U64
  sender : Address
  receiver : Option Address
  value : U128
  gasPrice : U128
  gasLimit : U64
  data : Bytes
  shardId : U16
  timestamp : U64
  signature : Bytes
  stealthAddress : Option StealthAddress
  zkProof : Option Bytes
  encryptedAmount : Option Bytes
  deriving DecidableEq

structure BlockHeader where
  version : U32
  prevHash : Hash
  merkleRoot : Hash
  stateRoot : Hash
  shardId : U16
  height : U64
  timestamp : U64
  validator : Address
  signature : Bytes
  txCount : U32
  gasUsed : U64
  extraData : Bytes
  deriving DecidableEq

structure ShardProof where
  shardId : U16
  blockHash : Hash
  stateRoot : Hash
  signature : Bytes
  deriving DecidableEq

structure Block where
  header : BlockHeader
  transactions : List Transaction
  shardProofs : List ShardProof
  deriving DecidableEq

structure Account where
  nonce : U64
  balance : U128
  codeHash : Option Hash
  storageRoot : Hash
  validatorStake : U128
  isContract : Bool
  viewKey : Option Bytes
  spendKey : Option Bytes
  deriving DecidableEq

/-- The derived `Default`: every field at its own default. -/
def Account.default : Account where
  nonce := 0
  balance := 0
  codeHash := none
  storageRoot := Hash.zero
  validatorStake := 0
  isContract := false
  viewKey := none
  spendKey := none

structure ChainConfig where
  chainId : U64
  shardCount : U16
  blockTimeMs : U64
  minGasPrice : U128
  maxBlockGas : U64
  validatorCount : U32
  epochLength : U64
  privacyEnabled : Bool
  crossChainEnabled : Bool
  deriving DecidableEq

def ChainConfig.default : ChainConfig where
  chainId := 1337
  shardCount := 64
  blockTimeMs := 300
  minGasPrice := 1
  maxBlockGas := 50000000
  validatorCount := 128
  epochLength := 1000
  privacyEnabled := true
  crossChainEnabled := true

/-- secp256k1 as `Validator::verify_signature` calls it: three parsers and the check. -/
structure Secp256k1 where
  PublicKey : Type
  Message : Type
  Signature : Type
  publicKeyFromSlice : Bytes → Option PublicKey
  messageFromSlice : Bytes → Option Message
  signatureFromCompact : Bytes → Option Signature
  verifyEcdsa : Message → Signature → PublicKey → Bool

/-- The third-party functions the node calls. -/
structure Crates where
  sha3 : Sha3
  bincodeTransaction : Transaction → Option Bytes
  bincodeHeader : BlockHeader → Option Bytes
  secp : Secp256k1

namespace Transaction

/-- `bincode::serialize(self).unwrap_or_default()`. -/
def encoded (crates : Crates) (tx : Transaction) : Bytes :=
  (crates.bincodeTransaction tx).getD []

def hash (crates : Crates) (tx : Transaction) : Hash :=
  Hash.new crates.sha3 (tx.encoded crates)

def gasCost (tx : Transaction) : U128 :=
  tx.gasPrice * tx.gasLimit.setWidth 128

end Transaction

def BlockHeader.hash (crates : Crates) (header : BlockHeader) : Hash :=
  Hash.new crates.sha3 ((crates.bincodeHeader header).getD [])

namespace MerkleTree

def combine (sha3 : Sha3) (left right : Hash) : Hash :=
  Hash.new sha3 (left.asBytes.toList ++ right.asBytes.toList)

/-- Levels are paired until one hash remains; no leaves give the zero hash. -/
def root (sha3 : Sha3) (leaves : List Hash) : Hash :=
  (Pairing.reduce (combine sha3) leaves).getD Hash.zero

end MerkleTree

/-! ## Concrete addresses and hashes -/

namespace Sample

def address (byte : UInt8) : Address := ⟨List.Vector.replicate 20 byte⟩

theorem address_inj {first second : UInt8} : address first = address second ↔ first = second := by
  constructor
  · intro same
    exact (List.cons.inj (congrArg (fun address => address.asBytes.toList) same)).1
  · rintro rfl
    rfl

/-- The first 32 bytes of the input, filled up with zeros. -/
def sha3 : Sha3 := fun data =>
  ⟨(data ++ List.replicate 32 0).take 32, by
    rw [List.length_take, List.length_append, List.length_replicate]
    omega⟩

end Sample

end ProtonChain
