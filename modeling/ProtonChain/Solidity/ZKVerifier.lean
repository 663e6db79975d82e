import ProtonChain.Library.Checked
import ProtonChain.Library.Codec
import ProtonChain.Solidity.Chain

/-! The verifier contract and the statements of its entry points.

All entry points check a proof against one verifying key. What a proof is about is the list of
public inputs alone: no word of it names the entry point.
-/

set_option autoImplicit false

namespace ProtonChain.Solidity

open Checked

namespace ProtonZKVerifier

abbrev Point := U256 × U256

structure VerifyingKey where
  alpha1 : Point
  beta2 : Point × Point
  gamma2 : Point × Point
  delta2 : Point × Point
  ic : List Point
  deriving DecidableEq

structure Proof where
  a : Point
  b : Point × Point
  c : Point
  deriving DecidableEq

end ProtonZKVerifier

inductive VerifierError where
  | verificationKeyNotSet
  | indexOutOfBounds
  deriving DecidableEq, Repr

structure ProtonZKVerifier where
  vk : ProtonZKVerifier.VerifyingKey
  vkSet : Bool

namespace ProtonZKVerifier

def setVerificationKey (alpha1 : Point) (beta2 gamma2 delta2 : Point × Point)
    (ic : List Point) : ProtonZKVerifier :=
  ⟨⟨alpha1, beta2, gamma2, delta2, ic⟩, true⟩

/-! ## Proofs -/

/-- `uint256(bytes32(data[32 * index : 32 * index + 32]))`. -/
def wordAt (data : Bytes) (index : Nat) : U256 :=
  BitVec.ofNat 256 (Address.bigEndian ((data.drop (32 * index)).take 32))

def decodeProof (data : Bytes) : Outcome VerifierError Proof := do
  ensure (256 ≤ data.length) (.reason "Invalid proof length")
  return {
    a := (wordAt data 0, wordAt data 1)
    b := ((wordAt data 2, wordAt data 3), (wordAt data 4, wordAt data 5))
    c := (wordAt data 6, wordAt data 7) }

def g1Add (a b : Point) : Outcome VerifierError Point := do
  let x ← add a.1 b.1
  let y ← add a.2 b.2
  return (x, y)

def g1ScalarMul (point : Point) (scalar : U256) : Outcome VerifierError Point := do
  let x ← mul point.1 scalar
  let y ← mul point.2 scalar
  return (x, y)

/-- The loop over the public inputs; each takes the next point of the key. -/
def combineInputs : List Point → List U256 → Point → Outcome VerifierError Point
  | _, [], vkX => .ok vkX
  | [], _ :: _, _ => .error (.raised .indexOutOfBounds)
  | point :: ic, input :: publicInputs, vkX => do
    let term ← g1ScalarMul point input
    let vkX ← g1Add vkX term
    combineInputs ic publicInputs vkX

theorem length_combineInputs {ic : List Point} {publicInputs : List U256} {vkX result : Point}
    (computed : combineInputs ic publicInputs vkX = .ok result) :
    publicInputs.length ≤ ic.length := by
  induction publicInputs generalizing ic vkX with
  | nil => exact Nat.zero_le _
  | cons input publicInputs ih =>
    cases ic with
    | nil => cases computed
    | cons point ic =>
      simp only [combineInputs, bind_eq_ok] at computed
      obtain ⟨term, -, next, -, rest⟩ := computed
      exact Nat.succ_le_succ (ih rest)

/-- The placeholder of the pairing check. -/
def verifyProof (vk : VerifyingKey) (_proof : Proof) (publicInputs : List U256) :
    Outcome VerifierError Bool :=
  match vk.ic with
  | [] => .error (.raised .indexOutOfBounds)
  | vkX :: ic => do
    let _ ← combineInputs ic publicInputs vkX
    return true

/-! ## Entry points -/

/-- `uint256(hash)`. -/
def uint256 (hash : Hash) : U256 := BitVec.ofNat 256 (Address.bigEndian hash.asBytes.toList)

/-- `uint256(uint160(account))`. -/
def uint160 (account : Address) : U256 := BitVec.ofNat 256 account.value

section EntryPoints
variable (keccak256 : Bytes → List.Vector UInt8 32)
  (check : VerifyingKey → Proof → List U256 → Outcome VerifierError Bool)
  (verifier : ProtonZKVerifier)

/-- The key is set, the proof is decoded and checked with the public inputs. -/
def verify (publicInputs : List U256) (proof : Bytes) : Outcome VerifierError Bool := do
  ensure verifier.vkSet (.raised .verificationKeyNotSet)
  let proof ← decodeProof proof
  check verifier.vk proof publicInputs

def verifyTransfer (nullifier commitment root : Hash) (proof : Bytes) :
    Outcome VerifierError Bool :=
  verify check verifier [uint256 nullifier, uint256 commitment, uint256 root] proof

def verifyBatchTransfer (nullifiers commitments : List Hash) (root : Hash) (proof : Bytes) :
    Outcome VerifierError Bool :=
  verify check verifier (nullifiers.map uint256 ++ commitments.map uint256 ++ [uint256 root]) proof

def verifySwap (pairHash nullifier encryptedAmountIn encryptedAmountOut : Hash) (proof : Bytes) :
    Outcome VerifierError Bool :=
  verify check verifier [uint256 pairHash, uint256 nullifier, uint256 encryptedAmountIn,
    uint256 encryptedAmountOut] proof

def verifyStake (validator : Address) (commitment nullifier : Hash) (proof : Bytes) :
    Outcome VerifierError Bool :=
  verify check verifier [uint160 validator, uint256 commitment, uint256 nullifier] proof

def verifyMetadata (metadataHash : Hash) (encryptedMetadata proof : Bytes) :
    Outcome VerifierError Bool :=
  verify check verifier [uint256 metadataHash, uint256 (Hash.new keccak256 encryptedMetadata)] proof

def verifyNFTOwnership (tokenId : U256) (currentStealth nullifier : Hash) (proof : Bytes) :
    Outcome VerifierError Bool :=
  verify check verifier [tokenId, uint256 currentStealth, uint256 nullifier] proof

def verifyBridgeAmount (asset : Address) (commitment : Hash) (proof : Bytes) :
    Outcome VerifierError Bool :=
  verify check verifier [uint160 asset, uint256 commitment] proof

def verifyMerkle (proof : Bytes) (transferId : Hash) : Outcome VerifierError Bool :=
  verify check verifier [uint256 transferId] proof

def verifyMerkleUpdate (chainId : U256) (newRoot : Hash) (proof : Bytes) :
    Outcome VerifierError Bool :=
  verify check verifier [chainId, uint256 newRoot] proof

def verifyViewKey (tokenId : U256) (viewKey : Hash) (proof : Bytes) :
    Outcome VerifierError Bool :=
  verify check verifier [tokenId, uint256 viewKey] proof

end EntryPoints

/-! ## Statements -/

inductive EntryPoint where
  | transfer
  | batchTransfer
  | swap
  | stake
  | metadata
  | nftOwnership
  | bridgeAmount
  | merkle
  | merkleUpdate
  | viewKey
  deriving DecidableEq, Repr

/-- What a call of an entry point is about: all its arguments but the proof. -/
inductive Statement where
  | transfer (nullifier commitment root : Hash)
  | batchTransfer (nullifiers commitments : List Hash) (root : Hash)
  | swap (pairHash nullifier encryptedAmountIn encryptedAmountOut : Hash)
  | stake (validator : Address) (commitment nullifier : Hash)
  | metadata (metadataHash : Hash) (encryptedMetadata : Bytes)
  | nftOwnership (tokenId : U256) (currentStealth nullifier : Hash)
  | bridgeAmount (asset : Address) (commitment : Hash)
  | merkle (transferId : Hash)
  | merkleUpdate (chainId : U256) (newRoot : Hash)
  | viewKey (tokenId : U256) (viewKey : Hash)

namespace Statement

def entryPoint : Statement → EntryPoint
  | transfer .. => .transfer
  | batchTransfer .. => .batchTransfer
  | swap .. => .swap
  | stake .. => .stake
  | metadata .. => .metadata
  | nftOwnership .. => .nftOwnership
  | bridgeAmount .. => .bridgeAmount
  | merkle .. => .merkle
  | merkleUpdate .. => .merkleUpdate
  | viewKey .. => .viewKey

section Calls
variable (keccak256 : Bytes → List.Vector UInt8 32)
  (check : VerifyingKey → Proof → List U256 → Outcome VerifierError Bool)
  (verifier : ProtonZKVerifier)

def call (proof : Bytes) : Statement → Outcome VerifierError Bool
  | transfer nullifier commitment root =>
    verifyTransfer check verifier nullifier commitment root proof
  | batchTransfer nullifiers commitments root =>
    verifyBatchTransfer check verifier nullifiers commitments root proof
  | swap pairHash nullifier encryptedAmountIn encryptedAmountOut =>
    verifySwap check verifier pairHash nullifier encryptedAmountIn encryptedAmountOut proof
  | stake validator commitment nullifier =>
    verifyStake check verifier validator commitment nullifier proof
  | metadata metadataHash encryptedMetadata =>
    verifyMetadata keccak256 check verifier metadataHash encryptedMetadata proof
  | nftOwnership tokenId currentStealth nullifier =>
    verifyNFTOwnership check verifier tokenId currentStealth nullifier proof
  | bridgeAmount asset commitment => verifyBridgeAmount check verifier asset commitment proof
  | merkle transferId => verifyMerkle check verifier proof transferId
  | merkleUpdate chainId newRoot => verifyMerkleUpdate check verifier chainId newRoot proof
  | viewKey tokenId key => verifyViewKey check verifier tokenId key proof

def publicInputs : Statement → List U256
  | transfer nullifier commitment root => [uint256 nullifier, uint256 commitment, uint256 root]
  | batchTransfer nullifiers commitments root =>
    nullifiers.map uint256 ++ commitments.map uint256 ++ [uint256 root]
  | swap pairHash nullifier encryptedAmountIn encryptedAmountOut =>
    [uint256 pairHash, uint256 nullifier, uint256 encryptedAmountIn, uint256 encryptedAmountOut]
  | stake validator commitment nullifier =>
    [uint160 validator, uint256 commitment, uint256 nullifier]
  | metadata metadataHash encryptedMetadata =>
    [uint256 metadataHash, uint256 (Hash.new keccak256 encryptedMetadata)]
  | nftOwnership tokenId currentStealth nullifier =>
    [tokenId, uint256 currentStealth, uint256 nullifier]
  | bridgeAmount asset commitment => [uint160 asset, uint256 commitment]
  | merkle transferId => [uint256 transferId]
  | merkleUpdate chainId newRoot => [chainId, uint256 newRoot]
  | viewKey tokenId key => [tokenId, uint256 key]

/-- A call sees nothing of its statement but the public inputs. -/
theorem call_eq (statement : Statement) (proof : Bytes) :
    statement.call keccak256 check verifier proof =
      verify check verifier (statement.publicInputs keccak256) proof := by
  cases statement <;> rfl

end Calls

end Statement

end ProtonZKVerifier

end ProtonChain.Solidity
