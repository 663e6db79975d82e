import ProtonChain.Library.Checked
import ProtonChain.Library.Codec
import ProtonChain.Library.Mapping
import ProtonChain.Library.Transactions
import ProtonChain.Solidity.Chain

/-! The bridge contract: locked assets, pending transfers and the signatures of validators.

Records of transfers are found by a hash of the call and its block. Signatures are a flag for
each validator and a counter next to them, which are not written by the same calls.
-/

set_option autoImplicit false

namespace ProtonChain.Solidity

open Checked

namespace ProtonBridge

structure ChainConfig where
  chainId : U256
  bridgeContract : Address
  isActive : Bool
  gasLimit : U256
  confirmationBlocks : U256
  deriving DecidableEq

/-- A mapping reads this where no chain was added. -/
def ChainConfig.empty : ChainConfig where
  chainId := 0
  bridgeContract := Address.zero
  isActive := false
  gasLimit := 0
  confirmationBlocks := 0

structure Validator where
  addr : Address
  stake : U256
  isActive : Bool
  lastSignature : U256
  deriving DecidableEq

def Validator.empty : Validator where
  addr := Address.zero
  stake := 0
  isActive := false
  lastSignature := 0

inductive TransferStatus where
  | pending
  | sourceConfirmed
  | signaturesComplete
  | executed
  | failed
  deriving DecidableEq, Repr

/-- The signatures are given by the validators that are mapped to `true`. -/
structure PendingTransfer where
  transferId : Hash
  sourceChain : U256
  targetChain : U256
  sender : Address
  receiver : Address
  asset : Address
  amount : U256
  signatures : Finset Address
  signatureCount : U256
  status : TransferStatus
  timestamp : U256
  encryptedAmount : Hash
  stealthReceiver : Hash
  deriving DecidableEq

def PendingTransfer.empty : PendingTransfer where
  transferId := Hash.zero
  sourceChain := 0
  targetChain := 0
  sender := Address.zero
  receiver := Address.zero
  asset := Address.zero
  amount := 0
  signatures := ∅
  signatureCount := 0
  status := .pending
  timestamp := 0
  encryptedAmount := Hash.zero
  stealthReceiver := Hash.zero

end ProtonBridge

inductive BridgeError where
  | ownableUnauthorizedAccount
  | chainNotSupported
  | chainAlreadyAdded
  | validatorAlreadyExists
  | insufficientSignatures
  | transferAlreadyCompleted
  | transferNotFound
  | invalidMerkleProof
  | invalidZKProof
  | notValidator
  | validatorNotActive
  | insufficientLockedAssets
  deriving DecidableEq, Repr

/-- The mapping of completed transfers to `bool` is given by the keys mapped to `true`. -/
structure ProtonBridge where
  owner : Address
  supportedChains : HashMap U256 ProtonBridge.ChainConfig
  chainIds : List U256
  wrappedAssets : HashMap Hash Address
  lockedAssets : HashMap Hash U256
  validators : HashMap Address ProtonBridge.Validator
  validatorList : List Address
  validatorThreshold : U256
  totalValidatorStake : U256
  pendingTransfers : HashMap Hash ProtonBridge.PendingTransfer
  pendingTransferIds : List Hash
  completedTransfers : Finset Hash
  merkleRoots : HashMap U256 Hash
  zkVerifier : Address

/-- A chain with its id, `ecrecover`, the `mint` call of wrapped tokens and the static calls of the
verifier contract. A call that fails is `none`. -/
structure BridgeEnv (World : Type) extends Env World where
  chainId : U256
  ecrecover : Hash → UInt8 → Hash → Hash → Address
  mint : World → Address → Address → Address → U256 → Option World
  verifyMerkle : World → Address → Bytes → Hash → Option Bytes
  verifyMerkleUpdate : World → Address → U256 → Hash → Bytes → Option Bytes
  verifyBridgeAmount : World → Address → Address → Hash → Bytes → Option Bytes

structure BlockContext where
  timestamp : U256
  number : U256
  deriving DecidableEq

namespace ProtonBridge

def new (deployer : Address) (validatorThreshold : U256) (zkVerifier : Address) :
    ProtonBridge where
  owner := deployer
  supportedChains := ∅
  chainIds := []
  wrappedAssets := ∅
  lockedAssets := ∅
  validators := ∅
  validatorList := []
  validatorThreshold := validatorThreshold
  totalValidatorStake := 0
  pendingTransfers := ∅
  pendingTransferIds := []
  completedTransfers := ∅
  merkleRoots := ∅
  zkVerifier := zkVerifier

/-! ## Mappings -/

section Mappings
variable (bridge : ProtonBridge)

def supportedChain (chainId : U256) : ChainConfig :=
  (bridge.supportedChains.lookup chainId).getD ChainConfig.empty

def wrappedAsset (key : Hash) : Address := (bridge.wrappedAssets.lookup key).getD Address.zero

def lockedAsset (key : Hash) : U256 := Mapping.read bridge.lockedAssets key

def validator (address : Address) : Validator :=
  (bridge.validators.lookup address).getD Validator.empty

def setValidator (address : Address) (validator : Validator) : ProtonBridge :=
  { bridge with validators := bridge.validators.insert address validator }

def pendingTransfer (transferId : Hash) : PendingTransfer :=
  (bridge.pendingTransfers.lookup transferId).getD PendingTransfer.empty

def setPendingTransfer (transferId : Hash) (transfer : PendingTransfer) : ProtonBridge :=
  { bridge with pendingTransfers := bridge.pendingTransfers.insert transferId transfer }

def setLockedAsset (key : Hash) (amount : U256) : ProtonBridge :=
  { bridge with lockedAssets := bridge.lockedAssets.insert key amount }

theorem pendingTransfer_setPendingTransfer (transferId : Hash) (transfer : PendingTransfer)
    (other : Hash) :
    (bridge.setPendingTransfer transferId transfer).pendingTransfer other =
      if other = transferId then transfer else bridge.pendingTransfer other := by
  rw [pendingTransfer, setPendingTransfer, FiniteMap.lookup_insert]
  split <;> rfl

theorem validator_setValidator (address : Address) (validator : Validator) (other : Address) :
    (bridge.setValidator address validator).validator other =
      if other = address then validator else bridge.validator other := by
  rw [ProtonBridge.validator, setValidator, FiniteMap.lookup_insert]
  split <;> rfl

theorem lockedAsset_setLockedAsset (key : Hash) (amount : U256) (other : Hash) :
    (bridge.setLockedAsset key amount).lockedAsset other =
      if other = key then amount else bridge.lockedAsset other :=
  Mapping.read_insert bridge.lockedAssets key amount other

end Mappings

/-! ## Hashes -/

/-- The 32 bytes of a `uint256`, the highest first. -/
def word (value : U256) : Bytes := (Codec.toBytes 32 value.toNat).reverse

section Hashes
variable (keccak256 : Bytes → List.Vector UInt8 32)

/-- `keccak256(abi.encodePacked(chainId, asset))`. -/
def assetKey (chainId : U256) (asset : Address) : Hash :=
  Hash.new keccak256 (word chainId ++ asset.asBytes.toList)

def transferIdOf (targetChain : U256) (sender receiver asset : Address) (amount : U256)
    (block : BlockContext) : Hash :=
  Hash.new keccak256 (word targetChain ++ sender.asBytes.toList ++ receiver.asBytes.toList ++
    asset.asBytes.toList ++ word amount ++ word block.timestamp ++ word block.number)

def privateTransferIdOf (targetChain : U256) (sender : Address) (stealthReceiver : Hash)
    (asset : Address) (encryptedAmount : Hash) (block : BlockContext) : Hash :=
  Hash.new keccak256 (word targetChain ++ sender.asBytes.toList ++
    stealthReceiver.asBytes.toList ++ asset.asBytes.toList ++ encryptedAmount.asBytes.toList ++
      word block.timestamp)

/-- `"\x19Ethereum Signed Message:\n32"`. -/
def signedMessagePrefix : Bytes :=
  [0x19, 0x45, 0x74, 0x68, 0x65, 0x72, 0x65, 0x75, 0x6d, 0x20, 0x53, 0x69, 0x67, 0x6e, 0x65, 0x64,
    0x20, 0x4d, 0x65, 0x73, 0x73, 0x61, 0x67, 0x65, 0x3a, 0x0a, 0x33, 0x32]

/-- What a validator signs for a transfer. -/
def ethSignedMessage (validator : Address) (transferId : Hash) : Hash :=
  let message := Hash.new keccak256 (validator.asBytes.toList ++ transferId.asBytes.toList)
  Hash.new keccak256 (signedMessagePrefix ++ message.asBytes.toList)

end Hashes

/-- The two halves of a signature and its last byte. -/
def splitSignature (signature : Bytes) : Outcome BridgeError (Hash × Hash × UInt8) :=
  if length : signature.length = 65 then
    .ok (⟨signature.take 32, by rw [List.length_take, length]; rfl⟩,
      ⟨(signature.drop 32).take 32, by rw [List.length_take, List.length_drop, length]; rfl⟩,
      signature.get ⟨64, by rw [length]; decide⟩)
  else .error (.reason "Invalid signature length")

/-! ## Calls -/

structure State (World : Type) where
  bridge : ProtonBridge
  world : World

section Calls
variable {World : Type} (env : BridgeEnv World)

def verifyValidatorSignature (bridge : ProtonBridge) (validator : Address) (transferId : Hash)
    (signature : Bytes) : Outcome BridgeError Bool := do
  let (r, s, v) ← splitSignature signature
  let signer := env.ecrecover (ethSignedMessage env.keccak256 validator transferId) v r s
  return decide (signer = validator) && (bridge.validator validator).isActive

def verifyMerkleProof (state : State World) (proof : Bytes) (transferId : Hash) :
    Outcome BridgeError Bool :=
  staticAnswer (env.verifyMerkle state.world state.bridge.zkVerifier proof transferId)

def verifyMerkleUpdateProof (state : State World) (chainId : U256) (newRoot : Hash)
    (proof : Bytes) : Outcome BridgeError Bool :=
  staticAnswer (env.verifyMerkleUpdate state.world state.bridge.zkVerifier chainId newRoot proof)

def verifyBridgeAmountProof (state : State World) (asset : Address) (commitment : Hash)
    (proof : Bytes) : Outcome BridgeError Bool :=
  staticAnswer (env.verifyBridgeAmount state.world state.bridge.zkVerifier asset commitment proof)

def transferFrom (asset owner : Address) (amount : U256) (world : World) :
    Outcome BridgeError World :=
  match env.erc20.transferFrom world asset env.self owner env.self amount with
  | some world => .ok world
  | none => .error (.reason "Lock failed")

def transfer (asset recipient : Address) (amount : U256) (world : World) :
    Outcome BridgeError World :=
  match env.erc20.transfer world asset env.self recipient amount with
  | some world => .ok world
  | none => .error (.reason "Release failed")

def mintWrapped (wrappedAsset recipient : Address) (amount : U256) (world : World) :
    Outcome BridgeError World :=
  match env.mint world wrappedAsset env.self recipient amount with
  | some world => .ok world
  | none => .error (.reason "Mint failed")

variable (caller : Address) (state : State World)

def addChain (chainId : U256) (bridgeContract : Address) (confirmationBlocks : U256) :
    Outcome BridgeError (State World) := do
  let bridge := state.bridge
  ensure (caller = bridge.owner) (.raised .ownableUnauthorizedAccount)
  ensure (¬ (bridge.supportedChain chainId).isActive) (.raised .chainAlreadyAdded)
  let config : ChainConfig :=
    { chainId := chainId
      bridgeContract := bridgeContract
      isActive := true
      gasLimit := 500000
      confirmationBlocks := confirmationBlocks }
  return { state with
    bridge := { bridge with
      supportedChains := bridge.supportedChains.insert chainId config
      chainIds := bridge.chainIds ++ [chainId] } }

def addValidator (address : Address) (stake : U256) : Outcome BridgeError (State World) := do
  let bridge := state.bridge
  ensure (caller = bridge.owner) (.raised .ownableUnauthorizedAccount)
  ensure ((bridge.validator address).addr = Address.zero) (.raised .validatorAlreadyExists)
  let totalValidatorStake ← add bridge.totalValidatorStake stake
  let bridge := bridge.setValidator address
    { addr := address
      stake := stake
      isActive := true
      lastSignature := 0 }
  return { state with
    bridge := { bridge with
      validatorList := bridge.validatorList ++ [address]
      totalValidatorStake := totalValidatorStake } }

/-- The fields that both ways to initiate a transfer write. The flags of the signatures stay as
they are. -/
def PendingTransfer.initiate (transfer : PendingTransfer) (transferId : Hash)
    (sourceChain targetChain : U256) (sender receiver asset : Address) (amount : U256)
    (block : BlockContext) : PendingTransfer :=
  { transfer with
    transferId := transferId
    sourceChain := sourceChain
    targetChain := targetChain
    sender := sender
    receiver := receiver
    asset := asset
    amount := amount
    signatureCount := 0
    status := .pending
    timestamp := block.timestamp }

def initiateTransfer (block : BlockContext) (targetChain : U256) (receiver asset : Address)
    (amount : U256) : Outcome BridgeError (Hash × State World) := do
  let bridge := state.bridge
  ensure (bridge.supportedChain targetChain).isActive (.raised .chainNotSupported)
  let transferId := transferIdOf env.keccak256 targetChain caller receiver asset amount block
  ensure (transferId ∉ bridge.completedTransfers) (.raised .transferAlreadyCompleted)
  let world ← transferFrom env asset caller amount state.world
  let lockKey := assetKey env.keccak256 targetChain asset
  let locked ← add (bridge.lockedAsset lockKey) amount
  let bridge := (bridge.setLockedAsset lockKey locked).setPendingTransfer transferId
    ((bridge.pendingTransfer transferId).initiate transferId env.chainId targetChain caller
      receiver asset amount block)
  return (transferId,
    ⟨{ bridge with pendingTransferIds := bridge.pendingTransferIds ++ [transferId] }, world⟩)

def initiatePrivateTransfer (block : BlockContext) (targetChain : U256) (stealthReceiver : Hash)
    (asset : Address) (encryptedAmount amountCommitment _nullifier : Hash) (zkProof : Bytes) :
    Outcome BridgeError (Hash × State World) := do
  let bridge := state.bridge
  ensure (bridge.supportedChain targetChain).isActive (.raised .chainNotSupported)
  let valid ← verifyBridgeAmountProof env state asset amountCommitment zkProof
  ensure valid (.raised .invalidZKProof)
  let transferId := privateTransferIdOf env.keccak256 targetChain caller stealthReceiver asset
    encryptedAmount block
  let lockKey := assetKey env.keccak256 targetChain asset
  let locked ← add (bridge.lockedAsset lockKey) 1
  let transfer := (bridge.pendingTransfer transferId).initiate transferId env.chainId targetChain
    caller Address.zero asset 0 block
  let bridge := (bridge.setLockedAsset lockKey locked).setPendingTransfer transferId
    { transfer with
      encryptedAmount := encryptedAmount
      stealthReceiver := stealthReceiver }
  return (transferId, { state with
    bridge := { bridge with pendingTransferIds := bridge.pendingTransferIds ++ [transferId] } })

/-- A signature is counted where the validator has no flag yet. -/
def PendingTransfer.record (transfer : PendingTransfer) (validator : Address) :
    Outcome BridgeError PendingTransfer :=
  if validator ∈ transfer.signatures then .ok transfer
  else do
    let signatureCount ← add transfer.signatureCount 1
    return { transfer with
      signatures := insert validator transfer.signatures
      signatureCount := signatureCount }

def signTransfer (block : BlockContext) (transferId : Hash) (signature merkleProof : Bytes) :
    Outcome BridgeError (State World) := do
  let bridge := state.bridge
  let validator := bridge.validator caller
  ensure (validator.addr ≠ Address.zero) (.raised .notValidator)
  ensure validator.isActive (.raised .validatorNotActive)
  let transfer := bridge.pendingTransfer transferId
  ensure (transfer.transferId ≠ Hash.zero) (.raised .transferNotFound)
  ensure (transfer.status ≠ .executed) (.raised .transferAlreadyCompleted)
  let valid ← verifyValidatorSignature env bridge caller transferId signature
  ensure valid (.raised .invalidZKProof)
  let proved ← verifyMerkleProof env state merkleProof transferId
  ensure proved (.raised .invalidMerkleProof)
  let transfer ← transfer.record caller
  let status : TransferStatus :=
    if bridge.validatorThreshold ≤ transfer.signatureCount then .signaturesComplete
    else .sourceConfirmed
  let bridge := bridge.setPendingTransfer transferId { transfer with status := status }
  return { state with
    bridge := bridge.setValidator caller { validator with lastSignature := block.timestamp } }

/-- The release of locked tokens where the asset has no wrapped token. -/
def releaseLocked (transfer : PendingTransfer) : Outcome BridgeError (State World) := do
  let lockKey := assetKey env.keccak256 transfer.sourceChain transfer.asset
  ensure (transfer.amount.toNat ≤ (state.bridge.lockedAsset lockKey).toNat)
    (.raised .insufficientLockedAssets)
  let locked ← sub (state.bridge.lockedAsset lockKey) transfer.amount
  let world ← ProtonBridge.transfer env transfer.asset transfer.receiver transfer.amount state.world
  return ⟨state.bridge.setLockedAsset lockKey locked, world⟩

/-- The wrapped token of the asset that a transfer moves, if there is one. -/
def wrappedOf (bridge : ProtonBridge) (transfer : PendingTransfer) : Address :=
  bridge.wrappedAsset (assetKey env.keccak256 transfer.sourceChain transfer.asset)

/-- The two branches of an execution: mint wrapped tokens or release locked ones. -/
def payOut (transfer : PendingTransfer) : Outcome BridgeError (State World) :=
  let wrapped := wrappedOf env state.bridge transfer
  if wrapped ≠ Address.zero then do
    let world ← mintWrapped env wrapped transfer.receiver transfer.amount state.world
    return { state with world := world }
  else releaseLocked env state transfer

def executeTransfer (transferId : Hash) : Outcome BridgeError (State World) := do
  let bridge := state.bridge
  let transfer := bridge.pendingTransfer transferId
  ensure (transfer.transferId ≠ Hash.zero) (.raised .transferNotFound)
  ensure (transfer.status = .signaturesComplete) (.raised .insufficientSignatures)
  ensure (transfer.targetChain = env.chainId) (.raised .chainNotSupported)
  ensure (transferId ∉ bridge.completedTransfers) (.raised .transferAlreadyCompleted)
  let paid ← payOut env state transfer
  let bridge := paid.bridge.setPendingTransfer transferId { transfer with status := .executed }
  return { paid with
    bridge := { bridge with completedTransfers := insert transferId bridge.completedTransfers } }

def updateMerkleRoot (chainId : U256) (newRoot : Hash) (zkProof : Bytes) :
    Outcome BridgeError (State World) := do
  let bridge := state.bridge
  let valid ← verifyMerkleUpdateProof env state chainId newRoot zkProof
  ensure valid (.raised .invalidZKProof)
  return { state with
    bridge := { bridge with merkleRoots := bridge.merkleRoots.insert chainId newRoot } }

def setParameter (change : ProtonBridge → ProtonBridge) : Outcome BridgeError (State World) := do
  ensure (caller = state.bridge.owner) (.raised .ownableUnauthorizedAccount)
  return { state with bridge := change state.bridge }

def registerWrappedAsset (chainId : U256) (remoteAsset localAsset : Address) :
    Outcome BridgeError (State World) :=
  setParameter caller state fun bridge =>
    { bridge with
      wrappedAssets :=
        bridge.wrappedAssets.insert (assetKey env.keccak256 chainId remoteAsset) localAsset }

def setValidatorThreshold (newThreshold : U256) : Outcome BridgeError (State World) :=
  setParameter caller state fun bridge => { bridge with validatorThreshold := newThreshold }

def setZKVerifier (newVerifier : Address) : Outcome BridgeError (State World) :=
  setParameter caller state fun bridge => { bridge with zkVerifier := newVerifier }

def deactivateChain (chainId : U256) : Outcome BridgeError (State World) :=
  setParameter caller state fun bridge =>
    { bridge with
      supportedChains := bridge.supportedChains.insert chainId
        { bridge.supportedChain chainId with isActive := false } }

def deactivateValidator (address : Address) : Outcome BridgeError (State World) :=
  setParameter caller state fun bridge =>
    bridge.setValidator address { bridge.validator address with isActive := false }

end Calls

/-! ## Runs -/

inductive Call where
  | addChain (chainId : U256) (bridgeContract : Address) (confirmationBlocks : U256)
  | registerWrappedAsset (chainId : U256) (remoteAsset localAsset : Address)
  | addValidator (address : Address) (stake : U256)
  | initiateTransfer (targetChain : U256) (receiver asset : Address) (amount : U256)
  | initiatePrivateTransfer (targetChain : U256) (stealthReceiver : Hash) (asset : Address)
    (encryptedAmount amountCommitment nullifier : Hash) (zkProof : Bytes)
  | signTransfer (transferId : Hash) (signature merkleProof : Bytes)
  | executeTransfer (transferId : Hash)
  | updateMerkleRoot (chainId : U256) (newRoot : Hash) (zkProof : Bytes)
  | setValidatorThreshold (newThreshold : U256)
  | setZKVerifier (newVerifier : Address)
  | deactivateChain (chainId : U256)
  | deactivateValidator (address : Address)

/-- A call in a block, or what happens outside: other calls leave a new world, and the owner
may have passed the ownership on. -/
inductive Input (World : Type) where
  | call (caller : Address) (block : BlockContext) (call : Call)
  | outside (world : World) (owner : Address)

section Runs
variable {World : Type} (env : BridgeEnv World)

def perform (state : State World) : Input World → Outcome BridgeError (State World)
  | .call caller _ (.addChain chainId bridgeContract confirmationBlocks) =>
    addChain caller state chainId bridgeContract confirmationBlocks
  | .call caller _ (.registerWrappedAsset chainId remoteAsset localAsset) =>
    registerWrappedAsset env caller state chainId remoteAsset localAsset
  | .call caller _ (.addValidator address stake) => addValidator caller state address stake
  | .call caller block (.initiateTransfer targetChain receiver asset amount) => do
    let (_, next) ← initiateTransfer env caller state block targetChain receiver asset amount
    return next
  | .call caller block (.initiatePrivateTransfer targetChain stealthReceiver asset encryptedAmount
      amountCommitment nullifier zkProof) => do
    let (_, next) ← initiatePrivateTransfer env caller state block targetChain stealthReceiver
      asset encryptedAmount amountCommitment nullifier zkProof
    return next
  | .call caller block (.signTransfer transferId signature merkleProof) =>
    signTransfer env caller state block transferId signature merkleProof
  | .call _ _ (.executeTransfer transferId) => executeTransfer env state transferId
  | .call _ _ (.updateMerkleRoot chainId newRoot zkProof) =>
    updateMerkleRoot env state chainId newRoot zkProof
  | .call caller _ (.setValidatorThreshold newThreshold) =>
    setValidatorThreshold caller state newThreshold
  | .call caller _ (.setZKVerifier newVerifier) => setZKVerifier caller state newVerifier
  | .call caller _ (.deactivateChain chainId) => deactivateChain caller state chainId
  | .call caller _ (.deactivateValidator address) => deactivateValidator caller state address
  | .outside world owner => .ok ⟨{ state.bridge with owner := owner }, world⟩

def step : State World → Input World → Except (Fault BridgeError) Unit × State World :=
  Transactions.step (perform env)

end Runs

end ProtonBridge

/-! ## A concrete bridge -/

namespace ProtonBridge.Sample

open Solidity.Sample (Ledger erc20)

/-- A digest that tells short messages apart. -/
def keccak256 (data : Bytes) : List.Vector UInt8 32 :=
  let digest := data.foldl (fun digest byte => (digest * 257 + byte.toNat + 1) % 2 ^ 256) 0
  ⟨Codec.toBytes 32 digest, Codec.length_toBytes 32 digest⟩

/-- The first 20 bytes of a signature name its signer. -/
def ecrecover (_message : Hash) (_v : UInt8) (r _s : Hash) : Address :=
  ⟨r.asBytes.toList.take 20, by rw [List.length_take, List.Vector.toList_length]; rfl⟩

def mint (ledger : Ledger) (wrapped _minter recipient : Address) (amount : U256) : Option Ledger :=
  let balance := ledger.balanceOf wrapped recipient
  if balance.toNat + amount.toNat < 2 ^ 256 then
    some (ledger.setBalance wrapped recipient (balance + amount))
  else none

/-- The bridge at address 8 of a chain, with a verifier that takes every proof. -/
def env (chainId : U256) : BridgeEnv Ledger where
  self := Sample.address 8
  keccak256 := keccak256
  erc20 := erc20
  chainId := chainId
  ecrecover := ecrecover
  mint := mint
  verifyMerkle _ _ _ _ := some trueWord
  verifyMerkleUpdate _ _ _ _ _ := some trueWord
  verifyBridgeAmount _ _ _ _ _ := some trueWord

def ledger : Ledger where
  balances := (∅ : HashMap (Address × Address) U256).insert
    (Sample.address 1, Sample.address 3) 5000
  allowances := (∅ : HashMap (Address × Address × Address) U256).insert
    (Sample.address 1, Sample.address 3, Sample.address 8) 5000

/-- Deployed by address 9, with a number of signatures that a transfer needs. -/
def deployed (threshold : U256) : State Ledger :=
  ⟨ProtonBridge.new (Sample.address 9) threshold (Sample.address 7), ledger⟩

def call (caller : UInt8) (call : Call) : Input Ledger := .call (Sample.address caller) ⟨0, 0⟩ call

/-- The owner adds chain 1 and the validators 4 and 5. -/
def setup : List (Input Ledger) :=
  [call 9 (.addChain 1 (Sample.address 8) 1), call 9 (.addValidator (Sample.address 4) 1),
    call 9 (.addValidator (Sample.address 5) 1)]

/-- Address 3 sends 100 of token 1 to address 6 on chain 1. -/
def initiate : Input Ledger :=
  call 3 (.initiateTransfer 1 (Sample.address 6) (Sample.address 1) 100)

def transferId : Hash :=
  transferIdOf keccak256 1 (Sample.address 3) (Sample.address 6) (Sample.address 1) 100 ⟨0, 0⟩

def sign (validator : UInt8) : Input Ledger :=
  call validator
    (.signTransfer transferId (List.replicate 20 validator ++ List.replicate 45 0) [])

def execute : Input Ledger := call 3 (.executeTransfer transferId)

end ProtonBridge.Sample

end ProtonChain.Solidity
