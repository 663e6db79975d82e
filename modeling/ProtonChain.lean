import ProtonChain.Vm.StateChanges
import ProtonChain.Vm.BlockSums
import ProtonChain.Vm.Deploy
import ProtonChain.Vm.StateRoot
import ProtonChain.Vm.ExactTransfer
import ProtonChain.Vm.PrivateTransfer
import ProtonChain.Vm.Gas
import ProtonChain.Vm.Atomicity
import ProtonChain.Vm.Footprints
import ProtonChain.Consensus.Intersection
import ProtonChain.Consensus.Commitment
import ProtonChain.Consensus.Ordering
import ProtonChain.Consensus.Removal
import ProtonChain.Consensus.Rounds
import ProtonChain.Consensus.LeaderRotation
import ProtonChain.Consensus.Committee
import ProtonChain.Consensus.DagAgreement
import ProtonChain.Consensus.Ancestors
import ProtonChain.Consensus.MerkleRoot
import ProtonChain.Multichain.Rollback
import ProtonChain.Multichain.Settlement
import ProtonChain.Multichain.Completion
import ProtonChain.Multichain.Routing
import ProtonChain.Storage.Rollback
import ProtonChain.Storage.Commit
import ProtonChain.Storage.Snapshot
import ProtonChain.Solidity.DexBooks
import ProtonChain.Solidity.DexSolvency
import ProtonChain.Solidity.DexOrder
import ProtonChain.Solidity.DexRoots
import ProtonChain.Contracts.DexReserves
import ProtonChain.Contracts.DexQuotes
import ProtonChain.Solidity.StakingSolvency
import ProtonChain.Solidity.StakingRewards
import ProtonChain.Solidity.StakingWithdrawals
import ProtonChain.Solidity.StakingQueue
import ProtonChain.Solidity.StakingActivity
import ProtonChain.Solidity.ValidatorActivity
import ProtonChain.Contracts.StakingTotals
import ProtonChain.Contracts.StakingUnbonding
import ProtonChain.Contracts.BridgeSignatures
import ProtonChain.Solidity.BridgeExecutions
import ProtonChain.Solidity.BridgeLocks
import ProtonChain.Solidity.BridgeBacking
import ProtonChain.Solidity.BridgePair
import ProtonChain.Solidity.PrivateTokenRoot
import ProtonChain.Contracts.Nullifiers
import ProtonChain.Solidity.ZKStatements
import ProtonChain.Solidity.ZKCompletion
import ProtonChain.Solidity.ZKBatch
import ProtonChain.Solidity.StakingViews
import ProtonChain.Solidity.BridgeViews
import ProtonChain.Contracts.NftOwners
import ProtonChain.Sdk.Independence
import ProtonChain.Sdk.U256
import ProtonChain.Privacy.Nullifier
import ProtonChain.Privacy.Stealth
import ProtonChain.Privacy.EncryptedMempool
import ProtonChain.Privacy.Prover
import ProtonChain.Privacy.Amounts
import ProtonChain.Network.BlockSync
import ProtonChain.Network.Gossip
import ProtonChain.ProtonNode
import ProtonChain.Solidity.PrivateNftOwners
import ProtonChain.Solidity.DexEncryptedOrders
import ProtonChain.Contracts.DexOrders
import ProtonChain.Contracts.TokenLedger
import ProtonChain.Solidity.PrivateNftLedgers
import ProtonChain.Solidity.DeploymentProofs
import ProtonChain.Solidity.DeploymentKeys
import ProtonChain.Contracts.BridgeLocks
import ProtonChain.Contracts.StakingDeposits
import ProtonChain.Network.Services
import ProtonChain.Contracts.DexPools
