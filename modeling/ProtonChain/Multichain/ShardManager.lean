import ProtonChain.Consensus.HotStuff
import ProtonChain.Vm.Machine

/-! Shards and the cross-chain router.

A call holds the lock of its shard until the router has answered, so calls take
effect one at a time, in the order in which they reach the router. The channels
to the shards are fed without a look at the outcome and are left out.
-/

set_option autoImplicit false

namespace ProtonChain.Multichain

open ProtonChain.Consensus ProtonChain.Vm

inductive CrossChainStatus where
  | pending
  | sourceConfirmed
  | inTransit
  | targetConfirmed
  | failed
  deriving DecidableEq, Repr

structure CrossChainTransaction where
  txId : Hash
  sourceShard : U16
  targetShard : U16
  sender : Address
  receiver : Address
  amount : U128
  nonce : U64
  status : CrossChainStatus
  proof : Option Bytes
  timestamp : U64
  deriving DecidableEq

structure CrossChainRouter where
  pendingTxs : HashMap Hash CrossChainTransaction
  /-- By timestamp. -/
  completedTxs : BTreeMap U64 Hash

structure CrossChainStats where
  pendingCount : Nat
  completedCount : Nat
  deriving DecidableEq, Repr

namespace CrossChainRouter

def new : CrossChainRouter := ⟨∅, ∅⟩

def submitCrossTx (router : CrossChainRouter) (tx : CrossChainTransaction) :
    Except String Unit × CrossChainRouter :=
  if tx.txId ∈ router.pendingTxs then (.error "Transaction already pending", router)
  else (.ok (), { router with pendingTxs := router.pendingTxs.insert tx.txId tx })

/-- The status and the proof are set on the record that is removed at once. -/
def confirmTx (router : CrossChainRouter) (txId : Hash) (_proof : Bytes) :
    Except String Unit × CrossChainRouter :=
  match router.pendingTxs.lookup txId with
  | some tx =>
    (.ok (),
      { router with
        completedTxs := router.completedTxs.insert tx.timestamp txId
        pendingTxs := router.pendingTxs.erase txId })
  | none => (.error "Transaction not found", router)

def getStats (router : CrossChainRouter) : CrossChainStats where
  pendingCount := router.pendingTxs.keys.card
  completedCount := router.completedTxs.keys.card

end CrossChainRouter

structure ShardConfig where
  shardId : U16
  validators : List Address
  consensus : HotStuffConsensus
  vm : ProtonVM
  crossChainEnabled : Bool

structure ShardState where
  accounts : HashMap Address Account
  nonceTracker : HashMap Address U64
  lastBlockHash : Hash
  crossChainNonce : U64

namespace ShardState

def account (state : ShardState) (address : Address) : Account :=
  (state.accounts.lookup address).getD Account.default

def setBalance (state : ShardState) (address : Address) (balance : U128) : ShardState :=
  { state with
    accounts := state.accounts.insert address { state.account address with balance := balance } }

end ShardState

structure Shard where
  config : ShardConfig
  state : ShardState
  blockHeight : U64
  pendingCrossTxs : List CrossChainTransaction

structure ShardManager where
  shards : HashMap U16 Shard
  crossChainRouter : CrossChainRouter
  config : ChainConfig
  totalTxProcessed : U64

namespace ShardManager

def new (config : ChainConfig) (router : CrossChainRouter) : ShardManager :=
  ⟨∅, router, config, 0⟩

/-- The source converts the count to a float. -/
def getTotalTps (manager : ShardManager) : U64 := manager.totalTxProcessed

/-- A shard before its first block: both stores are empty. The committee is the
one drawn from the validators by a shuffle seeded with the shard id. -/
def initialShard (sha3 : Sha3) (config : ChainConfig) (validatorSet : ValidatorSet)
    (committee : U64 → List Address) (shardId : U16) : Shard where
  config :=
    { shardId := shardId
      validators := committee (shardId.setWidth 64)
      consensus := HotStuffConsensus.new config validatorSet
        (Address.new sha3 (List.replicate 32 (UInt8.ofNat shardId.toNat)))
      vm :=
        { state :=
            { accounts := ∅
              contracts := ∅
              storage := ∅
              blockContext :=
                { height := 0
                  timestamp := 0
                  coinbase := Address.new sha3 (List.replicate 32 0)
                  difficulty := 1
                  gasLimit := config.maxBlockGas } }
          gasSchedule := GasSchedule.default }
      crossChainEnabled := config.crossChainEnabled }
  state := { accounts := ∅, nonceTracker := ∅, lastBlockHash := Hash.zero, crossChainNonce := 0 }
  blockHeight := 0
  pendingCrossTxs := []

def initializeShards (sha3 : Sha3) (manager : ShardManager) (validatorSet : ValidatorSet)
    (committee : U64 → List Address) : ShardManager :=
  { manager with
    shards := (List.range manager.config.shardCount.toNat).foldl
      (fun shards index => shards.insert (BitVec.ofNat 16 index)
        (initialShard sha3 manager.config validatorSet committee (BitVec.ofNat 16 index)))
      manager.shards }

def writeBalance (manager : ShardManager) (shardId : U16) (shard : Shard) (address : Address)
    (balance : U128) : ShardManager :=
  { manager with
    shards := manager.shards.insert shardId
      { shard with state := shard.state.setBalance address balance } }

def processCrossChainTx (manager : ShardManager) (tx : CrossChainTransaction) :
    Except String Unit × ShardManager :=
  match manager.shards.lookup tx.sourceShard with
  | none => (.ok (), manager)
  | some sourceShard =>
    let sender := sourceShard.state.account tx.sender
    if sender.balance < tx.amount then
      (.error "Insufficient balance for cross-chain transfer", manager)
    else
      let debited := manager.writeBalance tx.sourceShard sourceShard tx.sender
        (sender.balance - tx.amount)
      -- an error of the router is passed on, with the debit done
      let (answer, router) := manager.crossChainRouter.submitCrossTx
        { tx with status := .sourceConfirmed }
      (answer, { debited with crossChainRouter := router })

def receiveCrossChainTx (manager : ShardManager) (tx : CrossChainTransaction) :
    Except String Unit × ShardManager :=
  match manager.shards.lookup tx.targetShard with
  | none => (.ok (), manager)
  | some targetShard =>
    let receiver := targetShard.state.account tx.receiver
    let credited := manager.writeBalance tx.targetShard targetShard tx.receiver
      (receiver.balance + tx.amount)
    -- the credit comes first here as well
    let (answer, router) := manager.crossChainRouter.confirmTx tx.txId [1]
    (answer, { credited with crossChainRouter := router })

end ShardManager

/-! ## Calls -/

inductive CrossCall where
  | process (tx : CrossChainTransaction)
  | receive (tx : CrossChainTransaction)

def ShardManager.call (manager : ShardManager) : CrossCall → Except String Unit × ShardManager
  | .process tx => manager.processCrossChainTx tx
  | .receive tx => manager.receiveCrossChainTx tx

end ProtonChain.Multichain
