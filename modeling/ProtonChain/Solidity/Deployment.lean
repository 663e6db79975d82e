import ProtonChain.Solidity.Bridge
import ProtonChain.Solidity.DexEncryptedOrders
import ProtonChain.Solidity.PrivateNft
import ProtonChain.Solidity.PrivateToken
import ProtonChain.Solidity.Staking
import ProtonChain.Solidity.ZKVerifier

/-! The contracts of one deployment, all asking one verifier contract.

The five contracts act on one chain, in any order, and their proofs are answered by the verifier
as it is at that moment; anybody may give it another key between two calls. Where the owner of a
contract has named another verifier, nothing is known of its answers. Token contracts do not call
the verifier.
-/

set_option autoImplicit false

namespace ProtonChain.Solidity

open Checked ProtonZKVerifier

/-- Before a key is set. -/
def ProtonZKVerifier.deployed : ProtonZKVerifier :=
  ⟨⟨(0, 0), ((0, 0), (0, 0)), ((0, 0), (0, 0)), ((0, 0), (0, 0)), []⟩, false⟩

/-- What the contracts are deployed into, next to the verifier contract. -/
structure DeploymentEnv (World : Type) where
  keccak256 : Bytes → List.Vector UInt8 32
  ecrecover : Hash → UInt8 → Hash → Hash → Address
  chainId : U256
  erc20 : Erc20 World
  erc721 : Erc721 World
  mint : World → Address → Address → Address → U256 → Option World
  dex : Address
  staking : Address
  bridge : Address
  zkVerifier : Address
  elsewhere : World → Address → Statement → Bytes → Option Bytes

/-! ## Answers of the verifier -/

/-- `abi.encode(result)` of a `bool`. -/
def boolWord (result : Bool) : Bytes := if result then trueWord else List.replicate 32 0

/-- What a static call returns; it fails where the verifier reverts. -/
def returned : Outcome VerifierError Bool → Option Bytes
  | .ok result => some (boolWord result)
  | .error _ => none

theorem staticAnswer_boolWord {E : Type} (result : Bool) :
    (staticAnswer (some (boolWord result)) : Outcome E Bool) = .ok result := by
  cases result with
  | true => exact staticAnswer_trueWord
  | false =>
    have number : Address.bigEndian ((boolWord false).take 32) = 0 := by decide
    have width : (boolWord false).length = 32 := rfl
    simp [staticAnswer, decodeBool, number, width, ensure, Functor.map, Except.map]

theorem staticAnswer_returned {E : Type} {answer : Outcome VerifierError Bool} :
    (staticAnswer (returned answer) : Outcome E Bool) = .ok true ↔ answer = .ok true := by
  cases answer with
  | error fault => simp [returned, staticAnswer]
  | ok result => simp [returned, staticAnswer_boolWord]

namespace DeploymentEnv

section Envs
variable {World : Type} (env : DeploymentEnv World) (verifier : ProtonZKVerifier)

/-- A static call of the statement's entry point. -/
def answer (world : World) (address : Address) (statement : Statement) (proof : Bytes) :
    Option Bytes :=
  if address = env.zkVerifier then
    returned (statement.call env.keccak256 verifyProof verifier proof)
  else env.elsewhere world address statement proof

def tokenEnv : TokenEnv World where
  keccak256 := env.keccak256
  verifyTransfer world address nullifier commitment root :=
    env.answer verifier world address (.transfer nullifier commitment root)
  verifyBatchTransfer world address nullifiers commitments root :=
    env.answer verifier world address (.batchTransfer nullifiers commitments root)

def dexEnv : PrivateDexEnv World where
  self := env.dex
  keccak256 := env.keccak256
  erc20 := env.erc20
  zkVerifier := env.zkVerifier
  verifySwap world address pairHash nullifier encryptedAmountIn encryptedAmountOut :=
    env.answer verifier world address
      (.swap pairHash nullifier encryptedAmountIn encryptedAmountOut)

def stakingEnv : StakingEnv World where
  self := env.staking
  keccak256 := env.keccak256
  erc20 := env.erc20
  verifyStake world address validator commitment nullifier :=
    env.answer verifier world address (.stake validator commitment nullifier)

def nftEnv : NftEnv World where
  erc721 := env.erc721
  verifyMetadata world address metadataHash encryptedMetadata :=
    env.answer verifier world address (.metadata metadataHash encryptedMetadata)
  verifyNFTOwnership world address tokenId currentStealth nullifier :=
    env.answer verifier world address (.nftOwnership tokenId currentStealth nullifier)
  verifyViewKey world address tokenId viewKey :=
    env.answer verifier world address (.viewKey tokenId viewKey)

def bridgeEnv : BridgeEnv World where
  self := env.bridge
  keccak256 := env.keccak256
  erc20 := env.erc20
  chainId := env.chainId
  ecrecover := env.ecrecover
  mint := env.mint
  verifyMerkle world address proof transferId :=
    env.answer verifier world address (.merkle transferId) proof
  verifyMerkleUpdate world address chainId newRoot :=
    env.answer verifier world address (.merkleUpdate chainId newRoot)
  verifyBridgeAmount world address asset commitment :=
    env.answer verifier world address (.bridgeAmount asset commitment)

end Envs

end DeploymentEnv

/-! ## Calls -/

structure Deployment (World : Type) where
  verifier : ProtonZKVerifier
  world : World
  token : ProtonPrivateToken
  transfers : List ProtonPrivateToken.PrivateTransfer
  dex : ProtonDEX
  encryptedOrders : HashMap Hash EncryptedOrder
  pairOrderHashes : HashMap Hash (List Hash)
  staking : ProtonStaking
  nft : ProtonPrivateNFT
  announcements : List ProtonPrivateNFT.Event
  bridge : ProtonBridge

inductive DeploymentError where
  | token (error : TokenError)
  | dex (error : OrderError)
  | staking (error : StakingError)
  | nft (error : NftError)
  | bridge (error : BridgeError)
  deriving DecidableEq, Repr

namespace Deployment

/-- Every contract is deployed by one account and given the address of the verifier. -/
def deployed {World : Type} (env : DeploymentEnv World) (deployer protonToken : Address)
    (validatorThreshold : U256) (world : World) : Deployment World where
  verifier := ProtonZKVerifier.deployed
  world := world
  token := ProtonPrivateToken.new deployer env.zkVerifier
  transfers := []
  dex := ProtonDEX.new deployer deployer
  encryptedOrders := ∅
  pairOrderHashes := ∅
  staking := ProtonStaking.new deployer protonToken env.zkVerifier
  nft := ProtonPrivateNFT.new deployer env.zkVerifier
  announcements := []
  bridge := ProtonBridge.new deployer validatorThreshold env.zkVerifier

structure Owners where
  token : Address
  dex : Address
  staking : Address
  nft : Address
  bridge : Address

/-- A call of one of the six contracts, or what happens outside: other calls leave a new world,
and the ownership of contracts may have been passed on. -/
inductive Input (World : Type) where
  | setVerificationKey (vk : VerifyingKey)
  | token (caller : Address) (call : ProtonPrivateToken.Call)
  | dex (caller : Address) (call : ProtonDEX.Call)
  | privateSwap (caller tokenIn tokenOut : Address)
    (nullifier encryptedAmountIn encryptedAmountOut minAmountOutCommitment : Hash)
    (zkProof : Bytes)
  | placeEncryptedOrder (caller : Address) (timestamp : U256) (tokenA tokenB : Address)
    (encryptedAmount encryptedPrice : Hash) (isBuy : Bool) (zkProof : Hash)
  | cancelOrder (caller : Address) (orderHash : Hash)
  | staking (caller : Address) (now : U64) (call : ProtonStaking.Call)
  | nft (caller : Address) (timestamp : U256) (call : ProtonPrivateNFT.Call)
  | bridge (caller : Address) (block : BlockContext) (call : ProtonBridge.Call)
  | outside (world : World) (owners : Owners)

section Runs
variable {World : Type} (env : DeploymentEnv World) (state : Deployment World)

def setVerificationKey (vk : VerifyingKey) : Deployment World :=
  { state with
    verifier := ProtonZKVerifier.setVerificationKey vk.alpha1 vk.beta2 vk.gamma2 vk.delta2 vk.ic }

def callToken (caller : Address) (call : ProtonPrivateToken.Call) :
    Outcome DeploymentError (Deployment World) := do
  let next ← lift .token (ProtonPrivateToken.perform (env.tokenEnv state.verifier)
    ⟨state.token, state.transfers, state.world⟩ (.call caller call))
  return { state with
    world := next.world
    token := next.token
    transfers := next.events }

/-- A call of the exchange: public, private or of its order book. -/
def callDex (input : ProtonDEX.OrderInput World) :
    Outcome DeploymentError (Deployment World) := do
  let next ← lift .dex (ProtonDEX.performOrder (env.dexEnv state.verifier)
    ⟨⟨state.dex, state.world⟩, state.encryptedOrders, state.pairOrderHashes⟩ input)
  return { state with
    world := next.exchange.world
    dex := next.exchange.dex
    encryptedOrders := next.encryptedOrders
    pairOrderHashes := next.pairOrderHashes }

def callStaking (caller : Address) (now : U64) (call : ProtonStaking.Call) :
    Outcome DeploymentError (Deployment World) := do
  let next ← lift .staking (ProtonStaking.perform (env.stakingEnv state.verifier)
    ⟨state.staking, state.world⟩ (.call caller now call))
  return { state with
    world := next.world
    staking := next.staking }

def callNft (caller : Address) (timestamp : U256) (call : ProtonPrivateNFT.Call) :
    Outcome DeploymentError (Deployment World) := do
  let next ← lift .nft (ProtonPrivateNFT.perform (env.nftEnv state.verifier)
    ⟨state.nft, state.announcements, state.world⟩ (.call caller timestamp call))
  return { state with
    world := next.world
    nft := next.nft
    announcements := next.events }

def callBridge (caller : Address) (block : BlockContext) (call : ProtonBridge.Call) :
    Outcome DeploymentError (Deployment World) := do
  let next ← lift .bridge (ProtonBridge.perform (env.bridgeEnv state.verifier)
    ⟨state.bridge, state.world⟩ (.call caller block call))
  return { state with
    world := next.world
    bridge := next.bridge }

def happenOutside (world : World) (owners : Owners) : Deployment World :=
  { state with
    world := world
    token := { state.token with owner := owners.token }
    dex := { state.dex with owner := owners.dex }
    staking := { state.staking with owner := owners.staking }
    nft := { state.nft with owner := owners.nft }
    bridge := { state.bridge with owner := owners.bridge } }

def perform : Input World → Outcome DeploymentError (Deployment World)
  | .setVerificationKey vk => .ok (state.setVerificationKey vk)
  | .token caller call => callToken env state caller call
  | .dex caller call => callDex env state (.exchange (.dex (.call caller call)))
  | .privateSwap caller tokenIn tokenOut nullifier encryptedAmountIn encryptedAmountOut
      minAmountOutCommitment zkProof =>
    callDex env state (.exchange (.privateSwap caller tokenIn tokenOut nullifier encryptedAmountIn
      encryptedAmountOut minAmountOutCommitment zkProof))
  | .placeEncryptedOrder caller timestamp tokenA tokenB encryptedAmount encryptedPrice isBuy
      zkProof =>
    callDex env state (.placeEncryptedOrder caller timestamp tokenA tokenB encryptedAmount
      encryptedPrice isBuy zkProof)
  | .cancelOrder caller orderHash => callDex env state (.cancelOrder caller orderHash)
  | .staking caller now call => callStaking env state caller now call
  | .nft caller timestamp call => callNft env state caller timestamp call
  | .bridge caller block call => callBridge env state caller block call
  | .outside world owners => .ok (state.happenOutside world owners)

def step : Deployment World → Input World →
    Except (Fault DeploymentError) Unit × Deployment World :=
  Transactions.step (perform env)

end Runs

/-! ## A concrete deployment -/

namespace Sample

open Solidity.Sample (Ledger erc20 ledger)

/-- The verifier is at address 7; no collection, wrapped token or other verifier answers. -/
def env : DeploymentEnv Ledger where
  keccak256 := ProtonChain.Sample.sha3
  ecrecover _ _ _ _ := Address.zero
  chainId := 1
  erc20 := erc20
  erc721 := ⟨fun _ _ _ => none, fun _ _ _ => none, fun _ _ _ _ => none, fun _ _ _ _ => none,
    fun _ _ _ _ _ => none⟩
  mint _ _ _ _ _ := none
  dex := ProtonChain.Sample.address 4
  staking := ProtonChain.Sample.address 5
  bridge := ProtonChain.Sample.address 6
  zkVerifier := ProtonChain.Sample.address 7
  elsewhere _ _ _ _ := none

/-- Everything is deployed by address 9. -/
def start : Deployment Ledger :=
  deployed env (ProtonChain.Sample.address 9) (ProtonChain.Sample.address 1) 2 ledger

/-- A key with points for three public inputs. -/
def key : VerifyingKey where
  alpha1 := (1, 2)
  beta2 := ((3, 4), (5, 6))
  gamma2 := ((7, 8), (9, 10))
  delta2 := ((11, 12), (13, 14))
  ic := List.replicate 4 (15, 16)

def transfer (proof : Bytes) : Input Ledger :=
  .token (ProtonChain.Sample.address 3)
    (.privateTransfer Hash.zero Hash.zero Hash.zero Hash.zero proof)

end Sample

end Deployment

end ProtonChain.Solidity
