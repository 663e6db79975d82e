import ProtonChain.Library.Checked
import ProtonChain.Library.FiniteMap
import ProtonChain.Library.Transactions
import ProtonChain.Solidity.Chain

/-! The collection of tokens with public and stealth owners.

The contract extends an ERC-721 contract that keeps its own owners. That contract and the verifier
are parameters; what it does may depend on the storage, as it may call overridden functions. A
receiver that calls back while a token is minted finds nothing left to be written, so its calls are
calls after the mint.
-/

set_option autoImplicit false

namespace ProtonChain.Solidity

open Checked

inductive NftError where
  | tokenNotFound
  | notOwnerOrApproved
  | nullifierAlreadySpent
  | invalidZKProof
  | maxSupplyReached
  | tokenIsPrivate
  | tokenIsPublic
  | ownableUnauthorizedAccount
  deriving DecidableEq, Repr

structure NftData where
  tokenId : U256
  publicMetadata : String
  encryptedMetadataHash : Hash
  isPrivate : Bool
  createdAt : U256
  deriving DecidableEq

/-- A mapping reads this where no token was minted. -/
def NftData.empty : NftData where
  tokenId := 0
  publicMetadata := ""
  encryptedMetadataHash := Hash.zero
  isPrivate := false
  createdAt := 0

structure ProtonPrivateNFT where
  owner : Address
  zkVerifier : Address
  tokenData : HashMap U256 NftData
  publicOwners : HashMap U256 Address
  stealthOwners : HashMap U256 Hash
  encryptedMetadata : HashMap U256 Bytes
  nullifierSpent : Finset Hash
  tokenApprovals : HashMap U256 Address
  operatorApprovals : HashMap (Address × Address) Bool
  totalMinted : U256

/-- The functions of the extended contract that are called here, `none` where they revert. -/
structure Erc721 (World : Type) where
  ownerOf : ProtonPrivateNFT → World → U256 → Option Address
  balanceOf : ProtonPrivateNFT → World → Address → Option U256
  tokenOfOwnerByIndex : ProtonPrivateNFT → World → Address → U256 → Option U256
  safeMint : ProtonPrivateNFT → World → Address → U256 → Option World
  transfer : ProtonPrivateNFT → World → Address → Address → U256 → Option World

namespace Erc721

section Laws
variable {World : Type} (erc721 : Erc721 World)

/-- What an ERC-721 contract promises of its own owners. -/
structure Standard : Prop where
  recorded : ∀ nft nft' world tokenId,
    erc721.ownerOf nft world tokenId = erc721.ownerOf nft' world tokenId
  safeMint : ∀ nft before receiver tokenId after,
    erc721.safeMint nft before receiver tokenId = some after →
      receiver ≠ Address.zero ∧ ∀ other, erc721.ownerOf nft after other =
        if other = tokenId then some receiver else erc721.ownerOf nft before other
  transfer : ∀ nft before sender receiver tokenId after,
    erc721.transfer nft before sender receiver tokenId = some after →
      erc721.ownerOf nft before tokenId = some sender ∧ receiver ≠ Address.zero ∧
        ∀ other, erc721.ownerOf nft after other =
          if other = tokenId then some receiver else erc721.ownerOf nft before other

/-- A transfer from the owner to somebody goes through. -/
def Moves : Prop :=
  ∀ nft world sender receiver tokenId, erc721.ownerOf nft world tokenId = some sender →
    receiver ≠ Address.zero →
      ∃ after, erc721.transfer nft world sender receiver tokenId = some after

end Laws

end Erc721

/-- The extended contract and the verifier. A static call that fails answers `none`. -/
structure NftEnv (World : Type) where
  erc721 : Erc721 World
  verifyMetadata : World → Address → Hash → Bytes → Bytes → Option Bytes
  verifyNFTOwnership : World → Address → U256 → Hash → Hash → Bytes → Option Bytes
  verifyViewKey : World → Address → U256 → Hash → Bytes → Option Bytes

namespace ProtonPrivateNFT

def maxSupply : U256 := 100000

def new (deployer zkVerifier : Address) : ProtonPrivateNFT where
  owner := deployer
  zkVerifier := zkVerifier
  tokenData := ∅
  publicOwners := ∅
  stealthOwners := ∅
  encryptedMetadata := ∅
  nullifierSpent := ∅
  tokenApprovals := ∅
  operatorApprovals := ∅
  totalMinted := 0

/-! ## Views -/

section Views
variable (nft : ProtonPrivateNFT) (tokenId : U256)

def data : NftData := (nft.tokenData.lookup tokenId).getD NftData.empty

/-- The source's `_ownerOf`. -/
def publicOwner : Address := (nft.publicOwners.lookup tokenId).getD Address.zero

def stealthOwner : Hash := (nft.stealthOwners.lookup tokenId).getD Hash.zero

def tokenApproval : Address := (nft.tokenApprovals.lookup tokenId).getD Address.zero

def isOperator (owner operator : Address) : Bool :=
  (nft.operatorApprovals.lookup (owner, operator)).getD false

def ownerOf : Address :=
  if (nft.data tokenId).isPrivate then Address.zero else nft.publicOwner tokenId

def getEncryptedMetadata : Bytes := (nft.encryptedMetadata.lookup tokenId).getD []

def isPrivate : Bool := (nft.data tokenId).isPrivate

def getMetadata : String := (nft.data tokenId).publicMetadata

def totalSupply : U256 := nft.totalMinted

def isApprovedOrOwner (spender : Address) : Bool :=
  spender = nft.publicOwner tokenId || nft.tokenApproval tokenId = spender ||
    nft.isOperator (nft.publicOwner tokenId) spender

end Views

/-! ## Calls -/

inductive Event where
  | privateTransfer (tokenId : U256) (nullifier newStealth : Hash)
  | metadataEncrypted (tokenId : U256) (metadataHash : Hash)
  | viewKeyRevealed (tokenId : U256) (viewer : Address)
  | approval (owner approved : Address) (tokenId : U256)
  | approvalForAll (owner operator : Address) (approved : Bool)
  deriving DecidableEq

structure State (World : Type) where
  nft : ProtonPrivateNFT
  events : List Event
  world : World

section Calls
variable {World : Type} (env : NftEnv World) (caller : Address) (timestamp : U256)
  (state : State World)

/-- The extended contract mints with the storage as it is at that point. -/
def safeMint (receiver : Address) (tokenId : U256) (state : State World) :
    Outcome NftError (State World) := do
  let world ← demand (.reason "") (env.erc721.safeMint state.nft state.world receiver tokenId)
  return { state with world := world }

def verifyMetadataProof (metadataHash : Hash) (encryptedMetadata proof : Bytes) :
    Outcome NftError Bool :=
  staticAnswer
    (env.verifyMetadata state.world state.nft.zkVerifier metadataHash encryptedMetadata proof)

def verifyOwnershipProof (tokenId : U256) (currentStealth nullifier : Hash) (proof : Bytes) :
    Outcome NftError Bool :=
  staticAnswer (env.verifyNFTOwnership state.world state.nft.zkVerifier tokenId currentStealth
    nullifier proof)

def verifyViewKey (tokenId : U256) (viewKey : Hash) (proof : Bytes) : Outcome NftError Bool :=
  staticAnswer (env.verifyViewKey state.world state.nft.zkVerifier tokenId viewKey proof)

def publicMint (receiver : Address) (metadata : String) :
    Outcome NftError (U256 × State World) := do
  ensure (caller = state.nft.owner) (.raised .ownableUnauthorizedAccount)
  ensure (state.nft.totalMinted.toNat < maxSupply.toNat) (.raised .maxSupplyReached)
  let tokenId ← add state.nft.totalMinted 1
  let next ← safeMint env receiver tokenId { state with
    nft := { state.nft with
      totalMinted := tokenId
      tokenData := state.nft.tokenData.insert tokenId
        { tokenId := tokenId
          publicMetadata := metadata
          encryptedMetadataHash := Hash.zero
          isPrivate := false
          createdAt := timestamp }
      publicOwners := state.nft.publicOwners.insert tokenId receiver } }
  return (tokenId, next)

def privateMint (stealthOwner : Hash) (encryptedMetadata : Bytes) (metadataHash : Hash)
    (zkProof : Bytes) : Outcome NftError (U256 × State World) := do
  ensure (caller = state.nft.owner) (.raised .ownableUnauthorizedAccount)
  ensure (state.nft.totalMinted.toNat < maxSupply.toNat) (.raised .maxSupplyReached)
  let valid ← verifyMetadataProof env state metadataHash encryptedMetadata zkProof
  ensure valid (.raised .invalidZKProof)
  let tokenId ← add state.nft.totalMinted 1
  -- the token is minted to the zero address
  let next ← safeMint env Address.zero tokenId { state with
    nft := { state.nft with
      totalMinted := tokenId
      tokenData := state.nft.tokenData.insert tokenId
        { tokenId := tokenId
          publicMetadata := ""
          encryptedMetadataHash := metadataHash
          isPrivate := true
          createdAt := timestamp }
      stealthOwners := state.nft.stealthOwners.insert tokenId stealthOwner
      encryptedMetadata := state.nft.encryptedMetadata.insert tokenId encryptedMetadata } }
  return (tokenId, { next with events := next.events ++ [.metadataEncrypted tokenId metadataHash] })

/-- `sender` and `receiver` are the source's `_from` and `_to`. -/
def publicTransfer (sender receiver : Address) (tokenId : U256) :
    Outcome NftError (State World) := do
  ensure (state.nft.isApprovedOrOwner tokenId caller = true) (.raised .notOwnerOrApproved)
  ensure ((state.nft.data tokenId).isPrivate = false) (.raised .tokenIsPrivate)
  let nft := { state.nft with
    publicOwners := state.nft.publicOwners.insert tokenId receiver
    tokenApprovals := state.nft.tokenApprovals.erase tokenId }
  let world ← demand (.reason "") (env.erc721.transfer nft state.world sender receiver tokenId)
  return { state with
    nft := nft
    world := world }

def privateTransfer (tokenId : U256) (newStealthOwner nullifier : Hash) (zkProof : Bytes) :
    Outcome NftError (State World) := do
  ensure ((env.erc721.ownerOf state.nft state.world tokenId).isSome = true)
    (.raised .tokenNotFound)
  ensure ((state.nft.data tokenId).isPrivate = true) (.raised .tokenIsPublic)
  ensure (nullifier ∉ state.nft.nullifierSpent) (.raised .nullifierAlreadySpent)
  let currentStealth := state.nft.stealthOwner tokenId
  let valid ← verifyOwnershipProof env state tokenId currentStealth nullifier zkProof
  ensure valid (.raised .invalidZKProof)
  return { state with
    nft := { state.nft with
      nullifierSpent := insert nullifier state.nft.nullifierSpent
      stealthOwners := state.nft.stealthOwners.insert tokenId newStealthOwner }
    events := state.events ++ [.privateTransfer tokenId nullifier newStealthOwner] }

def approve (receiver : Address) (tokenId : U256) : Outcome NftError (State World) := do
  let owner := state.nft.publicOwner tokenId
  ensure (owner = caller ∨ state.nft.isOperator owner caller = true) (.raised .notOwnerOrApproved)
  return { state with
    nft := { state.nft with
      tokenApprovals := state.nft.tokenApprovals.insert tokenId receiver }
    events := state.events ++ [.approval owner receiver tokenId] }

def setApprovalForAll (operator : Address) (approved : Bool) : State World :=
  { state with
    nft := { state.nft with
      operatorApprovals := state.nft.operatorApprovals.insert (caller, operator) approved }
    events := state.events ++ [.approvalForAll caller operator approved] }

def revealMetadata (tokenId : U256) (viewKey : Hash) (zkProof : Bytes) :
    Outcome NftError (State World) := do
  let valid ← verifyViewKey env state tokenId viewKey zkProof
  ensure valid (.raised .invalidZKProof)
  return { state with events := state.events ++ [.viewKeyRevealed tokenId caller] }

def setZKVerifier (newVerifier : Address) : Outcome NftError (State World) := do
  ensure (caller = state.nft.owner) (.raised .ownableUnauthorizedAccount)
  return { state with nft := { state.nft with zkVerifier := newVerifier } }

end Calls

/-! ## Runs -/

inductive Call where
  | publicMint (receiver : Address) (metadata : String)
  | privateMint (stealthOwner : Hash) (encryptedMetadata : Bytes) (metadataHash : Hash)
    (zkProof : Bytes)
  | publicTransfer (sender receiver : Address) (tokenId : U256)
  | privateTransfer (tokenId : U256) (newStealthOwner nullifier : Hash) (zkProof : Bytes)
  | approve (receiver : Address) (tokenId : U256)
  | setApprovalForAll (operator : Address) (approved : Bool)
  | revealMetadata (tokenId : U256) (viewKey : Hash) (zkProof : Bytes)
  | setZKVerifier (newVerifier : Address)

/-- A call of the contract in a block, or what happens outside: other contracts and the inherited
functions leave a new world, and the owner may have passed the ownership on. -/
inductive Input (World : Type) where
  | call (caller : Address) (timestamp : U256) (call : Call)
  | outside (world : World) (owner : Address)

section Runs
variable {World : Type} (env : NftEnv World)

def perform (state : State World) : Input World → Outcome NftError (State World)
  | .call caller timestamp (.publicMint receiver metadata) => do
    let (_, next) ← publicMint env caller timestamp state receiver metadata
    return next
  | .call caller timestamp (.privateMint stealthOwner encryptedMetadata metadataHash zkProof) => do
    let (_, next) ← privateMint env caller timestamp state stealthOwner encryptedMetadata
      metadataHash zkProof
    return next
  | .call caller _ (.publicTransfer sender receiver tokenId) =>
    publicTransfer env caller state sender receiver tokenId
  | .call _ _ (.privateTransfer tokenId newStealthOwner nullifier zkProof) =>
    privateTransfer env state tokenId newStealthOwner nullifier zkProof
  | .call caller _ (.approve receiver tokenId) => approve caller state receiver tokenId
  | .call caller _ (.setApprovalForAll operator approved) =>
    .ok (setApprovalForAll caller state operator approved)
  | .call caller _ (.revealMetadata tokenId viewKey zkProof) =>
    revealMetadata env caller state tokenId viewKey zkProof
  | .call caller _ (.setZKVerifier newVerifier) => setZKVerifier caller state newVerifier
  | .outside world owner =>
    .ok { state with
      nft := { state.nft with owner := owner }
      world := world }

def step : State World → Input World → Except (Fault NftError) Unit × State World :=
  Transactions.step (perform env)

def deployed (deployer zkVerifier : Address) (world : World) : State World :=
  ⟨new deployer zkVerifier, [], world⟩

end Runs

/-! ## A concrete collection -/

namespace Sample

/-- The tokens in the order of their mints, with their owners. -/
structure Registry where
  entries : List (U256 × Address)
  distinct : (entries.map Prod.fst).Nodup

namespace Registry

def ownerOf (registry : Registry) (tokenId : U256) : Option Address :=
  (registry.entries.find? fun entry => entry.1 = tokenId).map Prod.snd

def heldBy (registry : Registry) (holder : Address) : List U256 :=
  (registry.entries.filter fun entry => entry.2 = holder).map Prod.fst

def balanceOf (registry : Registry) (holder : Address) : Option U256 :=
  if (registry.heldBy holder).length < 2 ^ 256 then
    some (BitVec.ofNat 256 (registry.heldBy holder).length)
  else none

def safeMint (registry : Registry) (receiver : Address) (tokenId : U256) : Option Registry :=
  if absent : tokenId ∉ registry.entries.map Prod.fst then
    if receiver = Address.zero then none
    else some
      { entries := registry.entries ++ [(tokenId, receiver)]
        distinct := by
          rw [List.map_append]
          exact registry.distinct.append (List.nodup_singleton _) (by simpa using absent) }
  else none

/-- The entry of a token with another owner. -/
def assign (tokenId : U256) (receiver : Address) (entry : U256 × Address) : U256 × Address :=
  (entry.1, if entry.1 = tokenId then receiver else entry.2)

def transfer (registry : Registry) (sender receiver : Address) (tokenId : U256) :
    Option Registry :=
  if registry.ownerOf tokenId = some sender ∧ receiver ≠ Address.zero then
    some
      { entries := registry.entries.map (assign tokenId receiver)
        distinct := by
          rw [List.map_map]
          exact registry.distinct }
  else none

/-- An id has one entry, so the first is the one. -/
theorem ownerOf_eq_some {registry : Registry} {tokenId : U256} {owner : Address} :
    registry.ownerOf tokenId = some owner ↔ (tokenId, owner) ∈ registry.entries := by
  have distinct := registry.distinct
  rw [ownerOf]
  generalize registry.entries = entries at distinct
  induction entries with
  | nil => simp
  | cons entry rest ih =>
    rw [List.map_cons, List.nodup_cons] at distinct
    rw [List.find?_cons, List.mem_cons]
    by_cases same : entry.1 = tokenId
    · have missing : (tokenId, owner) ∉ rest := by
        intro listed
        exact distinct.1 (List.mem_map.mpr ⟨_, listed, same.symm⟩)
      simp only [same, decide_true, Option.map_some, Option.some.injEq]
      rw [or_iff_left missing, Prod.ext_iff, eq_comm]
      exact (and_iff_right same.symm).symm
    · have apart : (tokenId, owner) ≠ entry := by
        rintro rfl
        exact same rfl
      simp only [same, decide_false, apart, false_or]
      exact ih distinct.2

end Registry

def erc721 : Erc721 Registry where
  ownerOf _ := Registry.ownerOf
  balanceOf _ := Registry.balanceOf
  tokenOfOwnerByIndex _ registry holder index := (registry.heldBy holder)[index.toNat]?
  safeMint _ := Registry.safeMint
  transfer _ := Registry.transfer

theorem ownerOf_safeMint {before after : Registry} {receiver : Address} {tokenId : U256}
    (minted : before.safeMint receiver tokenId = some after) (other : U256) :
    after.ownerOf other = if other = tokenId then some receiver else before.ownerOf other := by
  simp only [Registry.safeMint, Option.dite_none_right_eq_some] at minted
  obtain ⟨absent, minted⟩ := minted
  split at minted
  · cases minted
  · obtain rfl := Option.some.inj minted
    apply Option.ext
    intro owner
    simp only [Registry.ownerOf_eq_some, List.mem_append, List.mem_singleton, Prod.mk.injEq]
    by_cases same : other = tokenId
    · subst same
      have missing : (other, owner) ∉ before.entries := by
        intro listed
        exact absent (List.mem_map.mpr ⟨_, listed, rfl⟩)
      simp [missing, eq_comm]
    · simp [same, Registry.ownerOf_eq_some]

theorem ownerOf_transfer {before after : Registry} {sender receiver : Address} {tokenId : U256}
    (moved : before.transfer sender receiver tokenId = some after) (other : U256) :
    before.ownerOf tokenId = some sender ∧ receiver ≠ Address.zero ∧
      after.ownerOf other = if other = tokenId then some receiver else before.ownerOf other := by
  simp only [Registry.transfer, Option.ite_none_right_eq_some] at moved
  obtain ⟨⟨held, somebody⟩, same⟩ := moved
  obtain rfl := Option.some.inj same
  refine ⟨held, somebody, Option.ext fun owner => ?_⟩
  simp only [Registry.ownerOf_eq_some, List.mem_map, Registry.assign, Prod.exists, Prod.mk.injEq]
  by_cases same : other = tokenId
  · subst same
    rw [if_pos rfl]
    rw [Registry.ownerOf_eq_some] at held
    constructor
    · rintro ⟨id, old, -, rfl, given⟩
      simpa using given
    · intro given
      exact ⟨other, sender, held, rfl, by simpa using given⟩
  · rw [if_neg same, Registry.ownerOf_eq_some]
    constructor
    · rintro ⟨id, old, listed, rfl, given⟩
      rw [if_neg same] at given
      rwa [← given]
    · intro listed
      exact ⟨other, owner, listed, rfl, if_neg same⟩

theorem erc721_standard : erc721.Standard where
  recorded _ _ _ _ := rfl
  safeMint nft before receiver tokenId after minted := by
    refine ⟨?_, ownerOf_safeMint minted⟩
    rintro rfl
    simp [erc721, Registry.safeMint] at minted
  transfer nft before sender receiver tokenId after moved := by
    obtain ⟨held, somebody, -⟩ := ownerOf_transfer moved tokenId
    exact ⟨held, somebody, fun other => (ownerOf_transfer moved other).2.2⟩

theorem erc721_moves : erc721.Moves := by
  intro nft world sender receiver tokenId held somebody
  have both : world.ownerOf tokenId = some sender ∧ receiver ≠ Address.zero := ⟨held, somebody⟩
  exact ⟨_, if_pos both⟩

/-- Every proof is accepted. -/
def env : NftEnv Registry where
  erc721 := erc721
  verifyMetadata _ _ _ _ _ := some trueWord
  verifyNFTOwnership _ _ _ _ _ _ := some trueWord
  verifyViewKey _ _ _ _ _ := some trueWord

def call (caller : UInt8) (call : Call) : Input Registry := .call (Sample.address caller) 0 call

def empty : Registry := ⟨[], List.nodup_nil⟩

def start : State Registry := deployed (Sample.address 9) (Sample.address 8) empty

end Sample

end ProtonPrivateNFT

end ProtonChain.Solidity
