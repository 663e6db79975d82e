import ProtonChain.Library.Checked
import ProtonChain.Library.FiniteMap
import ProtonChain.Library.Transactions
import ProtonChain.Types

/-! The bridge as a contract of the chain itself.

A record keeps the signatures themselves, in the order in which they came in, and the
decision is taken on their number. An executed transfer leaves the pending ones.
-/

set_option autoImplicit false

namespace ProtonChain.Contracts

open Checked

namespace ProtonBridge

structure ChainConfig where
  chainId : U64
  bridgeContract : Address
  isActive : Bool
  gasLimit : U64
  confirmationBlocks : U64
  deriving DecidableEq

structure ValidatorInfo where
  address : Address
  stake : U128
  isActive : Bool
  lastSignature : U64
  deriving DecidableEq

inductive TransferStatus where
  | pending
  | sourceConfirmed
  | signaturesComplete
  | executed
  | failed
  deriving DecidableEq, Repr

structure PendingTransfer where
  transferId : Hash
  sourceChain : U64
  targetChain : U64
  sender : Address
  receiver : Address
  asset : Address
  amount : U128
  signatures : List (Address × Bytes)
  status : TransferStatus
  timestamp : U64
  encryptedAmount : Option Bytes
  stealthReceiver : Option StealthAddress
  deriving DecidableEq

end ProtonBridge

structure ProtonBridge where
  supportedChains : HashMap U64 ProtonBridge.ChainConfig
  wrappedAssets : HashMap (U64 × Address) Address
  lockedAssets : HashMap (U64 × Address) U128
  validators : HashMap Address ProtonBridge.ValidatorInfo
  validatorThreshold : U16
  pendingTransfers : HashMap Hash ProtonBridge.PendingTransfer
  completedTransfers : Finset Hash
  merkleRoots : HashMap U64 Hash
  zkVk : Bytes

inductive BridgePanic where
  | transferFrom
  | transfer
  | mintWrappedTokens
  | lockPrivateAssets
  deriving DecidableEq, Repr

/-- The host functions that the contract calls; those that panic are `none`. -/
structure BridgeHost (World : Type) where
  selfAddress : Address
  chainId : U64
  sha3 : Sha3
  callerIsOwner : World → Address → Bool
  transferFrom : World → Address → Address → Address → U128 → Option World
  transfer : World → Address → Address → U128 → Option World
  mintWrappedTokens : World → Address → Address → U128 → Option World
  lockPrivateAssets : World → Address → Address → Hash → Option World
  verifyBridgeAmountProof : World → Bytes → Address → Hash → Bool
  verifyValidatorSignature : World → Address → Hash → Bytes → Bool
  verifyMerkleProof : World → Bytes → Hash → Bool
  verifyMerkleUpdateProof : World → Bytes → U64 → Hash → Bool

/-- What the host answers during a call: who calls, the time and fresh random bytes. -/
structure CallContext where
  caller : Address
  timestamp : U64
  randomBytes : List.Vector UInt8 32

namespace ProtonBridge

def new (validatorThreshold : U16) : ProtonBridge where
  supportedChains := ∅
  wrappedAssets := ∅
  lockedAssets := ∅
  validators := ∅
  validatorThreshold := validatorThreshold
  pendingTransfers := ∅
  completedTransfers := ∅
  merkleRoots := ∅
  zkVk := []

def lockedAsset (bridge : ProtonBridge) (key : U64 × Address) : U128 :=
  (bridge.lockedAssets.lookup key).getD 0

/-- `u128::to_le_bytes`. -/
def toLeBytes16 (value : U128) : Bytes :=
  (List.range 16).map fun index => UInt8.ofNat (value.toNat / 256 ^ index)

/-! ## Calls -/

structure State (World : Type) where
  bridge : ProtonBridge
  world : World

section Calls
variable {World : Type} (host : BridgeHost World) (context : CallContext) (state : State World)

def addChain (chainId : U64) (bridgeContract : Address) (confirmationBlocks : U64) :
    Outcome BridgePanic (State World) := do
  let bridge := state.bridge
  ensure (host.callerIsOwner state.world context.caller) (.reason "Only owner")
  ensure (chainId ∉ bridge.supportedChains) (.reason "Chain already added")
  let config : ChainConfig :=
    { chainId := chainId
      bridgeContract := bridgeContract
      isActive := true
      gasLimit := 500000
      confirmationBlocks := confirmationBlocks }
  return { state with
    bridge := { bridge with supportedChains := bridge.supportedChains.insert chainId config } }

def registerWrappedAsset (chainId : U64) (remoteAsset localAsset : Address) :
    Outcome BridgePanic (State World) := do
  let bridge := state.bridge
  ensure (host.callerIsOwner state.world context.caller) (.reason "Only owner")
  return { state with
    bridge := { bridge with
      wrappedAssets := bridge.wrappedAssets.insert (chainId, remoteAsset) localAsset } }

/-- A validator that is added again is written anew. -/
def addValidator (validator : Address) (stake : U128) : Outcome BridgePanic (State World) := do
  let bridge := state.bridge
  ensure (host.callerIsOwner state.world context.caller) (.reason "Only owner")
  let info : ValidatorInfo :=
    { address := validator
      stake := stake
      isActive := true
      lastSignature := 0 }
  return { state with
    bridge := { bridge with validators := bridge.validators.insert validator info } }

def generateTransferId (targetChain : U64) (sender receiver asset : Address) (amount : U128) :
    Hash :=
  Hash.new host.sha3 (toLeBytes targetChain ++ sender.asBytes.toList ++ receiver.asBytes.toList ++
    asset.asBytes.toList ++ toLeBytes16 amount ++ toLeBytes context.timestamp ++
      context.randomBytes.toList)

/-- The id of the transfer is returned. -/
def initiateTransfer (targetChain : U64) (receiver asset : Address) (amount : U128) :
    Outcome BridgePanic (Hash × State World) := do
  let bridge := state.bridge
  let chain ← demand (.reason "Chain not supported") (bridge.supportedChains.lookup targetChain)
  ensure chain.isActive (.reason "Chain not active")
  let sender := context.caller
  let transferId := generateTransferId host context targetChain sender receiver asset amount
  ensure (transferId ∉ bridge.completedTransfers) (.reason "Transfer already completed")
  let world ← demand (.raised .transferFrom)
    (host.transferFrom state.world asset sender host.selfAddress amount)
  let locked ← add (bridge.lockedAsset (targetChain, asset)) amount
  let transfer : PendingTransfer :=
    { transferId := transferId
      sourceChain := host.chainId
      targetChain := targetChain
      sender := sender
      receiver := receiver
      asset := asset
      amount := amount
      signatures := []
      status := .pending
      timestamp := context.timestamp
      encryptedAmount := none
      stealthReceiver := none }
  return (transferId,
    ⟨{ bridge with
      lockedAssets := bridge.lockedAssets.insert (targetChain, asset) locked
      pendingTransfers := bridge.pendingTransfers.insert transferId transfer }, world⟩)

def initiatePrivateTransfer (targetChain : U64) (stealthReceiver : StealthAddress)
    (asset : Address) (encryptedAmount : Bytes) (amountCommitment : Hash) (zkProof : Bytes) :
    Outcome BridgePanic (Hash × State World) := do
  let bridge := state.bridge
  ensure (host.verifyBridgeAmountProof state.world zkProof asset amountCommitment)
    (.reason "Invalid amount proof")
  let sender := context.caller
  let transferId := Hash.new host.sha3 (toLeBytes targetChain ++ sender.asBytes.toList ++
    encryptedAmount ++ toLeBytes context.timestamp)
  let world ← demand (.raised .lockPrivateAssets)
    (host.lockPrivateAssets state.world asset sender amountCommitment)
  let transfer : PendingTransfer :=
    { transferId := transferId
      sourceChain := host.chainId
      targetChain := targetChain
      sender := sender
      receiver := Address.new host.sha3 (List.replicate 32 0)
      asset := asset
      amount := 0
      signatures := []
      status := .pending
      timestamp := context.timestamp
      encryptedAmount := some encryptedAmount
      stealthReceiver := some stealthReceiver }
  return (transferId,
    ⟨{ bridge with
      pendingTransfers := bridge.pendingTransfers.insert transferId transfer }, world⟩)

/-- The signatures with a new one at the end, and the status that their number gives. -/
def PendingTransfer.push (transfer : PendingTransfer) (threshold : U16) (validator : Address)
    (signature : Bytes) : PendingTransfer :=
  let signatures := transfer.signatures ++ [(validator, signature)]
  let sigCount := BitVec.ofNat 16 signatures.length
  { transfer with
    signatures := signatures
    status := if threshold ≤ sigCount then .signaturesComplete else .sourceConfirmed }

def signTransfer (transferId : Hash) (signature merkleProof : Bytes) :
    Outcome BridgePanic (State World) := do
  let bridge := state.bridge
  let validator := context.caller
  let info ← demand (.reason "Not a validator") (bridge.validators.lookup validator)
  ensure info.isActive (.reason "Validator not active")
  let transfer ← demand (.reason "Transfer not found") (bridge.pendingTransfers.lookup transferId)
  ensure (transfer.status = .pending ∨ transfer.status = .sourceConfirmed)
    (.reason "Invalid transfer status")
  ensure (host.verifyValidatorSignature state.world validator transferId signature)
    (.reason "Invalid signature")
  ensure (host.verifyMerkleProof state.world merkleProof transferId)
    (.reason "Invalid merkle proof")
  return { state with
    bridge := { bridge with
      pendingTransfers := bridge.pendingTransfers.insert transferId
        (transfer.push bridge.validatorThreshold validator signature) } }

/-- The two branches of an execution: mint wrapped tokens or release locked ones. -/
def payOut (transfer : PendingTransfer) : Outcome BridgePanic (State World) :=
  let bridge := state.bridge
  let key := (transfer.sourceChain, transfer.asset)
  match bridge.wrappedAssets.lookup key with
  | some wrapped => do
    let world ← demand (.raised .mintWrappedTokens)
      (host.mintWrappedTokens state.world wrapped transfer.receiver transfer.amount)
    return { state with world := world }
  | none => do
    let current := bridge.lockedAsset key
    ensure (transfer.amount.toNat ≤ current.toNat) (.reason "Insufficient locked assets")
    let locked ← sub current transfer.amount
    let world ← demand (.raised .transfer)
      (host.transfer state.world transfer.asset transfer.receiver transfer.amount)
    return ⟨{ bridge with lockedAssets := bridge.lockedAssets.insert key locked }, world⟩

def executeTransfer (transferId : Hash) : Outcome BridgePanic (State World) := do
  let bridge := state.bridge
  let transfer ← demand (.reason "Transfer not found") (bridge.pendingTransfers.lookup transferId)
  ensure (transfer.status = .signaturesComplete) (.reason "Insufficient signatures")
  ensure (transfer.targetChain = host.chainId) (.reason "Wrong chain")
  ensure (transferId ∉ bridge.completedTransfers) (.reason "Already completed")
  let paid ← payOut host state transfer
  return { paid with
    bridge := { paid.bridge with
      completedTransfers := insert transferId paid.bridge.completedTransfers
      pendingTransfers := paid.bridge.pendingTransfers.erase transferId } }

def updateMerkleRoot (chainId : U64) (newRoot : Hash) (zkProof : Bytes) :
    Outcome BridgePanic (State World) := do
  let bridge := state.bridge
  ensure (host.verifyMerkleUpdateProof state.world zkProof chainId newRoot)
    (.reason "Invalid merkle proof")
  return { state with
    bridge := { bridge with merkleRoots := bridge.merkleRoots.insert chainId newRoot } }

end Calls

/-! ## Runs -/

inductive Call where
  | addChain (chainId : U64) (bridgeContract : Address) (confirmationBlocks : U64)
  | registerWrappedAsset (chainId : U64) (remoteAsset localAsset : Address)
  | addValidator (validator : Address) (stake : U128)
  | initiateTransfer (targetChain : U64) (receiver asset : Address) (amount : U128)
  | initiatePrivateTransfer (targetChain : U64) (stealthReceiver : StealthAddress)
    (asset : Address) (encryptedAmount : Bytes) (amountCommitment : Hash) (zkProof : Bytes)
  | signTransfer (transferId : Hash) (signature merkleProof : Bytes)
  | executeTransfer (transferId : Hash)
  | updateMerkleRoot (chainId : U64) (newRoot : Hash) (zkProof : Bytes)

inductive Input (World : Type) where
  | call (context : CallContext) (call : Call)
  | outside (world : World)

def perform {World : Type} (host : BridgeHost World) (state : State World) :
    Input World → Outcome BridgePanic (State World)
  | .call context (.addChain chainId bridgeContract confirmationBlocks) =>
    addChain host context state chainId bridgeContract confirmationBlocks
  | .call context (.registerWrappedAsset chainId remoteAsset localAsset) =>
    registerWrappedAsset host context state chainId remoteAsset localAsset
  | .call context (.addValidator validator stake) => addValidator host context state validator stake
  | .call context (.initiateTransfer targetChain receiver asset amount) => do
    let (_, next) ← initiateTransfer host context state targetChain receiver asset amount
    return next
  | .call context (.initiatePrivateTransfer targetChain stealthReceiver asset encryptedAmount
      amountCommitment zkProof) => do
    let (_, next) ← initiatePrivateTransfer host context state targetChain stealthReceiver asset
      encryptedAmount amountCommitment zkProof
    return next
  | .call context (.signTransfer transferId signature merkleProof) =>
    signTransfer host context state transferId signature merkleProof
  | .call _ (.executeTransfer transferId) => executeTransfer host state transferId
  | .call _ (.updateMerkleRoot chainId newRoot zkProof) =>
    updateMerkleRoot host state chainId newRoot zkProof
  | .outside world => .ok { state with world := world }

def step {World : Type} (host : BridgeHost World) : State World → Input World →
    Except (Fault BridgePanic) Unit × State World :=
  Transactions.step (perform host)

end ProtonBridge

end ProtonChain.Contracts
