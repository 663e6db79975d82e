import ProtonChain.Consensus.Mempool
import ProtonChain.Consensus.Validators
import ProtonChain.Library.Runs

/-! The consensus engine: proposal, acceptance and storage of blocks.

Acceptance looks at the presence of a parent, the Merkle root, the leader and
the signature. Storage inserts under the height the header names.
-/

set_option autoImplicit false

namespace ProtonChain.Consensus

structure HotStuffConsensus where
  config : ChainConfig
  validatorSet : ValidatorSet
  currentHeight : U64
  blocks : BTreeMap U64 Block
  mempool : Mempool
  myAddress : Address
  blocksFinalized : U64

namespace HotStuffConsensus

def new (config : ChainConfig) (validatorSet : ValidatorSet) (myAddress : Address) :
    HotStuffConsensus where
  config := config
  validatorSet := validatorSet
  currentHeight := 0
  blocks := ∅
  mempool := Mempool.new 100000
  myAddress := myAddress
  blocksFinalized := 0

variable (crates : Crates) (node : HotStuffConsensus) (block : Block)

def otherLeader (header : BlockHeader) : Bool :=
  match node.validatorSet.getLeader header.height with
  | some leader => leader ≠ header.validator
  | none => false

/-- The validator is registered and its signature on the header hash fails. -/
def badSignature (header : BlockHeader) : Bool :=
  match node.validatorSet.getValidator header.validator with
  | some validator => !validator.verifySignature crates.secp (header.hash crates) header.signature
  | none => false

def validateBlock : Bool :=
  -- the source computes the header hash here and compares it with nothing
  if 0 < block.header.height ∧ block.header.height - 1 ∉ node.blocks then false
  else if MerkleTree.root crates.sha3 (block.transactions.map (Transaction.hash crates)) ≠
      block.header.merkleRoot then false
  else if node.otherLeader block.header then false
  else if node.badSignature crates block.header then false
  else true

def finalizeBlock : HotStuffConsensus :=
  { node with
    blocks := node.blocks.insert block.header.height block
    mempool := node.mempool.removeTransactions
      (block.transactions.map (Transaction.hash crates))
    blocksFinalized := node.blocksFinalized + 1 }

def getBlock (height : U64) : Option Block := node.blocks.lookup height

def getLatestHeight : U64 := node.currentHeight

/-- The time is a parameter. The counter the height is taken from is written by
`new` alone. -/
def proposeBlock (prevHash : Hash) (timestamp : U64) : Option Block :=
  let txs := node.mempool.getTransactions 1000 node.config.minGasPrice
  if txs.isEmpty then none
  else
    some
      { header :=
          { version := 1
            prevHash := prevHash
            merkleRoot := MerkleTree.root crates.sha3 (txs.map (Transaction.hash crates))
            stateRoot := Hash.zero
            shardId := 0
            height := node.currentHeight + 1
            timestamp := timestamp
            validator := node.myAddress
            -- the source leaves the signature to a later step that does not exist
            signature := []
            txCount := BitVec.ofNat 32 txs.length
            gasUsed := 0
            extraData := [] }
        transactions := txs
        shardProofs := [] }

/-- The four tests of `validateBlock`. -/
structure Accepted : Prop where
  parent : 0 < block.header.height → block.header.height - 1 ∈ node.blocks
  merkle : MerkleTree.root crates.sha3 (block.transactions.map (Transaction.hash crates)) =
    block.header.merkleRoot
  leader : node.otherLeader block.header = false
  signed : node.badSignature crates block.header = false

theorem validateBlock_iff :
    node.validateBlock crates block = true ↔ Accepted crates node block := by
  unfold validateBlock
  split
  · rename_i orphan
    simp only [Bool.false_eq_true, false_iff]
    exact fun accepted => orphan.2 (accepted.parent orphan.1)
  rename_i rooted
  split
  · rename_i differ
    simp only [Bool.false_eq_true, false_iff]
    exact fun accepted => differ accepted.merkle
  rename_i merkle
  split
  · rename_i other
    simp only [Bool.false_eq_true, false_iff]
    exact fun accepted => Bool.false_ne_true (accepted.leader.symm.trans other)
  rename_i leader
  split
  · rename_i bad
    simp only [Bool.false_eq_true, false_iff]
    exact fun accepted => Bool.false_ne_true (accepted.signed.symm.trans bad)
  rename_i signed
  simp only [true_iff]
  exact ⟨fun above => not_not.mp fun missing => rooted ⟨above, missing⟩, not_not.mp merkle,
    Bool.eq_false_iff.mpr leader, Bool.eq_false_iff.mpr signed⟩

/-- What a proposal carries. -/
structure Proposed : Prop where
  selection : node.mempool.getTransactions 1000 node.config.minGasPrice = block.transactions
  nonempty : block.transactions ≠ []
  merkle : MerkleTree.root crates.sha3 (block.transactions.map (Transaction.hash crates)) =
    block.header.merkleRoot
  height : block.header.height = node.currentHeight + 1
  validator : block.header.validator = node.myAddress
  unsigned : block.header.signature = []

variable {node block} in
theorem proposeBlock_eq_some {prevHash : Hash} {timestamp : U64}
    (proposed : node.proposeBlock crates prevHash timestamp = some block) :
    Proposed crates node block := by
  simp only [proposeBlock] at proposed
  split at proposed
  · cases proposed
  · rename_i some
    cases proposed
    exact ⟨rfl, fun empty => some (List.isEmpty_iff.mpr empty), rfl, rfl, rfl, rfl⟩

theorem proposeBlock_eq_none {prevHash : Hash} {timestamp : U64} :
    node.proposeBlock crates prevHash timestamp = none ↔
      node.mempool.getTransactions 1000 node.config.minGasPrice = [] := by
  simp only [proposeBlock]
  split
  · rename_i empty
    exact iff_of_true rfl (List.isEmpty_iff.mp empty)
  · rename_i some
    exact iff_of_false nofun fun empty => some (List.isEmpty_iff.mpr empty)

theorem proposes (prevHash : Hash) (timestamp : U64)
    (selects : node.mempool.getTransactions 1000 node.config.minGasPrice ≠ []) :
    ∃ block, node.proposeBlock crates prevHash timestamp = some block ∧
      block.transactions = node.mempool.getTransactions 1000 node.config.minGasPrice := by
  cases proposed : node.proposeBlock crates prevHash timestamp with
  | none => exact absurd ((proposeBlock_eq_none crates node).mp proposed) selects
  | some block => exact ⟨block, rfl, (proposeBlock_eq_some crates proposed).selection.symm⟩

@[simp] theorem finalizeBlock_blocks : (node.finalizeBlock crates block).blocks =
    node.blocks.insert block.header.height block := rfl

theorem getBlock_finalizeBlock (height : U64) :
    (node.finalizeBlock crates block).getBlock height =
      if height = block.header.height then some block else node.getBlock height :=
  FiniteMap.lookup_insert _ _ _ _

theorem accepted_unregistered (noValidators : node.validatorSet.validators = ∅) :
    Accepted crates node block ↔
      (0 < block.header.height → block.header.height - 1 ∈ node.blocks) ∧
        MerkleTree.root crates.sha3 (block.transactions.map (Transaction.hash crates)) =
          block.header.merkleRoot := by
  have nobody : node.validatorSet.getLeader block.header.height = none := by
    have unsorted : ((node.validatorSet.validators.entries.map fun entry =>
        entry.2.address).sort Address.le) = [] := by
      rw [noValidators]
      exact Multiset.sort_zero _
    simp [ValidatorSet.getLeader, unsorted]
  have leader : node.otherLeader block.header = false := by
    rw [otherLeader, nobody]
  have signed : node.badSignature crates block.header = false := by
    simp [badSignature, ValidatorSet.getValidator, noValidators]
  exact ⟨fun accepted => ⟨accepted.parent, accepted.merkle⟩,
    fun ⟨parent, merkle⟩ => ⟨parent, merkle, leader, signed⟩⟩

end HotStuffConsensus

/-! ## Runs of validation and finalization -/

inductive Call where
  | validate (block : Block)
  | finalize (block : Block)

/-- The engine with the blocks it accepted so far. -/
structure Session where
  node : HotStuffConsensus
  accepted : List Block

namespace Session

def start (node : HotStuffConsensus) : Session := ⟨node, []⟩

def call (crates : Crates) (session : Session) : Call → Option Bool × Session
  | .validate block =>
    let verdict := session.node.validateBlock crates block
    (some verdict,
      { session with
        accepted := if verdict then block :: session.accepted else session.accepted })
  | .finalize block => (none, { session with node := session.node.finalizeBlock crates block })

/-- Only accepted blocks are finalized. -/
def Permitted (session : Session) : Call → Prop
  | .validate _ => True
  | .finalize block => block ∈ session.accepted

instance (session : Session) : DecidablePred session.Permitted
  | .validate _ => inferInstanceAs (Decidable True)
  | .finalize block => inferInstanceAs (Decidable (block ∈ session.accepted))

theorem permitted_of_valid (crates : Crates) (session : Session) (block : Block)
    (valid : session.node.validateBlock crates block = true) :
    (session.call crates (.validate block)).2.Permitted (.finalize block) := by
  rw [Permitted, call]
  simp only [valid, if_true]
  exact List.mem_cons_self

end Session

end ProtonChain.Consensus
