import ProtonChain.Bincode
import ProtonChain.Consensus.Validators
import ProtonChain.Multichain.ShardManager

/-! The messages between nodes. How they are written is left to the serializer, which is
third-party.
-/

set_option autoImplicit false

namespace ProtonChain.Network

open Consensus (QuorumCertificate)
open Multichain (CrossChainTransaction)

inductive NetworkMessage where
  | newView (height round : U64) (validator : Address)
  | prepare (blockHash : Hash) (height round : U64) (validator : Address) (signature : Bytes)
  | preCommit (blockHash : Hash) (height round : U64) (validator : Address) (signature : Bytes)
  | commit (blockHash : Hash) (height round : U64) (validator : Address) (signature : Bytes)
  | blockProposal (block : Block) (qc : Option QuorumCertificate)
  | blockRequest (height : U64) (shardId : U16)
  | blockResponse (block : Block)
  | transaction (tx : Transaction)
  | transactionBatch (txs : List Transaction) (shardId : U16)
  | crossChainTx (tx : CrossChainTransaction)
  | crossChainProof (txId : Hash) (proof : Bytes)
  | stateRequest (shardId : U16) (blockHeight : U64)
  | stateResponse (stateRoot : Hash) (accounts : List (Address × Account))
  | peerInfo (peerId address : String) (shardId : U16) (validator : Option Address)
  | ping (timestamp : U64)
  | pong (timestamp : U64)
  deriving DecidableEq

namespace NetworkMessage

def topic : NetworkMessage → String
  | blockProposal _ _ => "proton-blocks"
  | transaction _ | transactionBatch _ _ => "proton-transactions"
  | prepare _ _ _ _ _ | preCommit _ _ _ _ _ | commit _ _ _ _ _ | newView _ _ _ =>
    "proton-consensus"
  | crossChainTx _ | crossChainProof _ _ => "proton-crosschain"
  | _ => "proton-general"

def txs : NetworkMessage → List Transaction
  | transactionBatch txs _ => txs
  | _ => []

end NetworkMessage

end ProtonChain.Network
