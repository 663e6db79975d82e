import ProtonChain.Library.Checked
import ProtonChain.Library.FiniteMap
import ProtonChain.Library.Transactions
import ProtonChain.Types

/-! The collection of tokens with public and with stealth owners.

Ids are counted up from 1. A token is public or private from its mint on; which map holds its
owner follows from that. The host answers who calls and checks the proofs.
-/

set_option autoImplicit false

namespace ProtonChain.Contracts

open Checked

/-- Four limbs whose sum drops the last carry. -/
abbrev U256 := BitVec 256

namespace ProtonNFT

structure TokenData where
  tokenId : U256
  publicMetadata : String
  encryptedMetadataHash : Hash
  isPrivate : Bool
  createdAt : U64
  deriving DecidableEq

end ProtonNFT

structure ProtonNFT where
  tokens : HashMap U256 ProtonNFT.TokenData
  owners : HashMap U256 Address
  privateOwners : HashMap U256 StealthAddress
  encryptedMetadata : HashMap U256 Bytes
  approvals : HashMap U256 Address
  operatorApprovals : HashMap (Address × Address) Bool
  totalSupply : U256
  nullifiers : Finset Hash

inductive NftPanic where
  | unwrapNone
  deriving DecidableEq, Repr

/-- The host functions that the contract calls. The ownership proof is about the ephemeral key of
the stealth address only. -/
structure NftHost (World : Type) where
  sha3 : Sha3
  callerIsOwner : World → Address → Bool
  verifyMetadataProof : World → Bytes → Hash → Bytes → Bool
  verifyOwnershipProof : World → Bytes → U256 → List.Vector UInt8 32 → Hash → Bool

namespace ProtonNFT

def new : ProtonNFT where
  tokens := ∅
  owners := ∅
  privateOwners := ∅
  encryptedMetadata := ∅
  approvals := ∅
  operatorApprovals := ∅
  totalSupply := 0
  nullifiers := ∅

def ownerOf (nft : ProtonNFT) (tokenId : U256) : Option Address := nft.owners.lookup tokenId

/-- `Address::new(&[0u8; 32])`, which stands for a missing owner. -/
def hidden (sha3 : Sha3) : Address := Address.new sha3 (List.replicate 32 0)

def isApprovedOrOwner (sha3 : Sha3) (nft : ProtonNFT) (spender : Address) (tokenId : U256) :
    Bool :=
  let owner := nft.ownerOf tokenId
  if owner = some spender then true
  else if nft.approvals.lookup tokenId = some spender then true
  else (nft.operatorApprovals.lookup (owner.getD (hidden sha3), spender)).getD false

/-! ## Calls -/

structure State (World : Type) where
  nft : ProtonNFT
  world : World

section Calls
variable {World : Type} (host : NftHost World) (caller : Address) (state : State World)

/-- `receiver` is the source's `to`. The new id is returned. -/
def mint (timestamp : U64) (receiver : Address) (metadata : String) :
    Outcome NftPanic (U256 × State World) := do
  ensure (host.callerIsOwner state.world caller) (.reason "Only owner can mint")
  let tokenId := state.nft.totalSupply + 1
  let token : TokenData :=
    { tokenId := tokenId
      publicMetadata := metadata
      encryptedMetadataHash := Hash.zero
      isPrivate := false
      createdAt := timestamp }
  return (tokenId, { state with
    nft := { state.nft with
      totalSupply := tokenId
      tokens := state.nft.tokens.insert tokenId token
      owners := state.nft.owners.insert tokenId receiver } })

def mintPrivate (timestamp : U64) (toStealth : StealthAddress) (encryptedMetadata : Bytes)
    (metadataHash : Hash) (zkProof : Bytes) : Outcome NftPanic (U256 × State World) := do
  ensure (host.callerIsOwner state.world caller) (.reason "Only owner can mint")
  ensure (host.verifyMetadataProof state.world zkProof metadataHash encryptedMetadata)
    (.reason "Invalid metadata proof")
  let tokenId := state.nft.totalSupply + 1
  let token : TokenData :=
    { tokenId := tokenId
      publicMetadata := ""
      encryptedMetadataHash := metadataHash
      isPrivate := true
      createdAt := timestamp }
  return (tokenId, { state with
    nft := { state.nft with
      totalSupply := tokenId
      tokens := state.nft.tokens.insert tokenId token
      privateOwners := state.nft.privateOwners.insert tokenId toStealth
      encryptedMetadata := state.nft.encryptedMetadata.insert tokenId encryptedMetadata } })

/-- `sender` is the source's `from`, an argument like any other; who calls is not looked at. -/
def transfer (sender receiver : Address) (tokenId : U256) : Outcome NftPanic (State World) := do
  ensure (isApprovedOrOwner host.sha3 state.nft sender tokenId) (.reason "Not approved or owner")
  let token ← demand (.reason "Token not found") (state.nft.tokens.lookup tokenId)
  ensure (¬ token.isPrivate) (.reason "Use private_transfer for private tokens")
  return { state with
    nft := { state.nft with
      owners := state.nft.owners.insert tokenId receiver
      approvals := state.nft.approvals.erase tokenId } }

def privateTransfer (tokenId : U256) (toStealth : StealthAddress) (proof : Bytes)
    (nullifier _newCommitment : Hash) : Outcome NftPanic (State World) := do
  let token ← demand (.reason "Token not found") (state.nft.tokens.lookup tokenId)
  ensure token.isPrivate (.reason "Token is not private")
  let currentStealth ← demand (.raised .unwrapNone) (state.nft.privateOwners.lookup tokenId)
  ensure (host.verifyOwnershipProof state.world proof tokenId currentStealth.ephemeralPubkey
    nullifier) (.reason "Invalid ownership proof")
  ensure (nullifier ∉ state.nft.nullifiers) (.reason "Token already transferred")
  return { state with
    nft := { state.nft with
      nullifiers := insert nullifier state.nft.nullifiers
      privateOwners := state.nft.privateOwners.insert tokenId toStealth } }

def approve (receiver : Address) (tokenId : U256) : Outcome NftPanic (State World) := do
  let owner ← demand (.raised .unwrapNone) (state.nft.ownerOf tokenId)
  ensure (owner = caller) (.reason "Not owner")
  return { state with
    nft := { state.nft with approvals := state.nft.approvals.insert tokenId receiver } }

def setApprovalForAll (operator : Address) (approved : Bool) : State World :=
  { state with
    nft := { state.nft with
      operatorApprovals := state.nft.operatorApprovals.insert (caller, operator) approved } }

end Calls

/-! ## Runs -/

inductive Call where
  | mint (receiver : Address) (metadata : String)
  | mintPrivate (toStealth : StealthAddress) (encryptedMetadata : Bytes) (metadataHash : Hash)
    (zkProof : Bytes)
  | transfer (sender receiver : Address) (tokenId : U256)
  | privateTransfer (tokenId : U256) (toStealth : StealthAddress) (proof : Bytes)
    (nullifier newCommitment : Hash)
  | approve (receiver : Address) (tokenId : U256)
  | setApprovalForAll (operator : Address) (approved : Bool)

inductive Input (World : Type) where
  | call (caller : Address) (timestamp : U64) (call : Call)
  | outside (world : World)

section Runs
variable {World : Type} (host : NftHost World)

def perform (state : State World) : Input World → Outcome NftPanic (State World)
  | .call caller timestamp (.mint receiver metadata) => do
    let (_, next) ← mint host caller state timestamp receiver metadata
    return next
  | .call caller timestamp (.mintPrivate toStealth encryptedMetadata metadataHash zkProof) => do
    let (_, next) ← mintPrivate host caller state timestamp toStealth encryptedMetadata
      metadataHash zkProof
    return next
  | .call _ _ (.transfer sender receiver tokenId) => transfer host state sender receiver tokenId
  | .call _ _ (.privateTransfer tokenId toStealth proof nullifier newCommitment) =>
    privateTransfer host state tokenId toStealth proof nullifier newCommitment
  | .call caller _ (.approve receiver tokenId) => approve caller state receiver tokenId
  | .call caller _ (.setApprovalForAll operator approved) =>
    .ok (setApprovalForAll caller state operator approved)
  | .outside world => .ok { state with world := world }

def step : State World → Input World → Except (Fault NftPanic) Unit × State World :=
  Transactions.step (perform host)

def mintedId (state : State World) : Input World → Option U256
  | .call caller timestamp (.mint receiver metadata) =>
    (mint host caller state timestamp receiver metadata).toOption.map Prod.fst
  | .call caller timestamp (.mintPrivate toStealth encryptedMetadata metadataHash zkProof) =>
    (mintPrivate host caller state timestamp toStealth encryptedMetadata metadataHash
      zkProof).toOption.map Prod.fst
  | _ => none

end Runs

end ProtonNFT

end ProtonChain.Contracts
