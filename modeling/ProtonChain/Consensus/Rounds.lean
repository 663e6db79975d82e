import ProtonChain.Consensus.PoolIndexes
import Mathlib.Order.Lattice.Nat

/-! Rounds of submission, proposal and finalization.

The height a proposal is built on is a counter that finalization leaves alone,
and the signature of a proposal is never filled in.
-/

set_option autoImplicit false

namespace ProtonChain.Consensus

inductive RoundCall where
  | submit (tx : Transaction)
  | propose (prevHash : Hash) (timestamp : U64)
  | finalize (block : Block)

/-- Only a proposal answers with a block, and only a submission can fail. -/
def roundCall (crates : Crates) (node : HotStuffConsensus) :
    RoundCall → Except String (Option Block) × HotStuffConsensus
  | .submit tx =>
    let (answer, pool) := node.mempool.addTransaction crates tx
    (answer.map fun _ => none, { node with mempool := pool })
  | .propose prevHash timestamp => (.ok (node.proposeBlock crates prevHash timestamp), node)
  | .finalize block => (.ok none, node.finalizeBlock crates block)

/-! ## Heights -/

namespace HotStuffConsensus

/-- The greatest height in the store, zero if it is empty. Nothing is ever taken out. -/
def greatestFinalized (node : HotStuffConsensus) : Nat := node.blocks.keys.sup BitVec.toNat

/-- The chain grows from the greatest finalized height. -/
structure Extends (crates : Crates) (node : HotStuffConsensus) : Prop where
  latest : node.getLatestHeight.toNat = node.greatestFinalized
  next : ∀ prevHash timestamp block, node.proposeBlock crates prevHash timestamp = some block →
    block.header.height.toNat = node.greatestFinalized + 1

end HotStuffConsensus

def AtZero (_node : HotStuffConsensus) : RoundCall → Prop
  | .submit _ => True
  | .propose _ _ => True
  | .finalize block => block.header.height = 0

section Heights
variable {crates : Crates} {node : HotStuffConsensus}

/-- With the counter at zero the chain grows as long as zero is the greatest height. -/
theorem extends_iff (counter : node.currentHeight = 0) :
    node.Extends crates ↔ node.greatestFinalized = 0 := by
  constructor
  · intro grows
    rw [← grows.latest, HotStuffConsensus.getLatestHeight, counter]
    rfl
  · intro bottom
    refine ⟨?_, fun prevHash timestamp block proposed => ?_⟩
    · rw [HotStuffConsensus.getLatestHeight, counter, bottom]
      rfl
    · rw [(HotStuffConsensus.proposeBlock_eq_some crates proposed).height, counter, bottom]
      rfl

theorem finalize_greatest (crates : Crates) (node : HotStuffConsensus) (block : Block) :
    (node.finalizeBlock crates block).greatestFinalized =
      max block.header.height.toNat node.greatestFinalized := by
  rw [HotStuffConsensus.greatestFinalized, HotStuffConsensus.finalizeBlock_blocks,
    FiniteMap.keys_insert, Finset.sup_insert]
  rfl

theorem roundCall_counter (call : RoundCall) :
    (roundCall crates node call).2.currentHeight = node.currentHeight := by
  cases call with
  | submit tx => rfl
  | propose prevHash timestamp => rfl
  | finalize block => rfl

theorem roundCall_extends_iff (counter : node.currentHeight = 0) (grows : node.Extends crates)
    (call : RoundCall) :
    (roundCall crates node call).2.Extends crates ↔ AtZero node call := by
  have bottom := (extends_iff counter).mp grows
  rw [extends_iff ((roundCall_counter call).trans counter)]
  cases call with
  | submit tx => exact iff_of_true bottom trivial
  | propose prevHash timestamp => exact iff_of_true bottom trivial
  | finalize block =>
    have greatest := finalize_greatest crates node block
    rw [bottom, Nat.max_zero] at greatest
    have zero : block.header.height = 0 ↔ block.header.height.toNat = 0 := BitVec.toNat_inj.symm
    rw [AtZero, zero, ← greatest]
    rfl

end Heights

/-- From a new engine the latest height follows the finalized blocks, and proposals
build on it, exactly as long as only height zero is finalized. -/
theorem latestHeight_iff (crates : Crates) (config : ChainConfig) (set : ValidatorSet)
    (address : Address) (calls : List RoundCall) :
    Runs.Visits (roundCall crates) (HotStuffConsensus.Extends crates)
        (HotStuffConsensus.new config set address) calls ↔
      Runs.Meets (roundCall crates) AtZero (HotStuffConsensus.new config set address) calls := by
  have keep : ∀ (node : HotStuffConsensus) (call : RoundCall),
      node.currentHeight = 0 ∧ node.Extends crates → AtZero node call →
        (roundCall crates node call).2.currentHeight = 0 ∧
          (roundCall crates node call).2.Extends crates :=
    fun node call now zero => ⟨(roundCall_counter call).trans now.1,
      (roundCall_extends_iff now.1 now.2 call).mpr zero⟩
  exact Runs.visits_iff_meets_of_stronger _ (fun _ now => now.2) keep
    (fun _ call now after => (roundCall_extends_iff now.1 now.2 call).mp after)
    ⟨rfl, (extends_iff rfl).mpr rfl⟩ calls

/-! ## Signatures -/

/-- The empty byte string is no valid signature. -/
def RejectsEmpty (secp : Secp256k1) : Prop :=
  ∀ signature, secp.signatureFromCompact [] = some signature →
    ∀ message key, secp.verifyEcdsa message signature key = false

theorem RejectsEmpty.unverified {secp : Secp256k1} (rejects : RejectsEmpty secp)
    (validator : Validator) (hash : Hash) : validator.verifySignature secp hash [] = false := by
  unfold Validator.verifySignature
  split
  · rfl
  split
  · rfl
  split
  · rfl
  · rename_i signature parsed
    exact rejects signature parsed _ _

/-- The engine accepts what it proposes on top of the given hash. -/
def AcceptsOwn (crates : Crates) (prevHash : HotStuffConsensus → Hash)
    (node : HotStuffConsensus) : Prop :=
  ∀ timestamp block, node.proposeBlock crates (prevHash node) timestamp = some block →
    node.validateBlock crates block = true

/-- A submission is refused or pays less than the minimum. -/
def Unselectable (node : HotStuffConsensus) : RoundCall → Prop
  | .submit tx => node.mempool.maxSize ≤ node.mempool.size ∨ tx.gasPrice < node.config.minGasPrice
  | .propose _ _ => True
  | .finalize _ => True

/-- A registered engine whose pool indexes nothing at the minimum or above. -/
structure Idle (node : HotStuffConsensus) : Prop where
  registered : node.myAddress ∈ node.validatorSet.validators
  empty : ∀ price, node.config.minGasPrice ≤ price → node.mempool.bucket price = []

section Signatures
variable {crates : Crates} {node : HotStuffConsensus}

theorem proposal_refused (rejects : RejectsEmpty crates.secp)
    (registered : node.myAddress ∈ node.validatorSet.validators) {prevHash : Hash}
    {timestamp : U64} {block : Block}
    (proposed : node.proposeBlock crates prevHash timestamp = some block) :
    node.validateBlock crates block = false := by
  have own := HotStuffConsensus.proposeBlock_eq_some crates proposed
  obtain ⟨validator, found⟩ := Option.isSome_iff_exists.mp (Finmap.lookup_isSome.mpr registered)
  refine Bool.eq_false_iff.mpr fun valid => ?_
  have signed := ((node.validateBlock_iff crates block).mp valid).signed
  rw [HotStuffConsensus.badSignature, own.validator, own.unsigned, ValidatorSet.getValidator,
    found] at signed
  simp [rejects.unverified] at signed

theorem Idle.acceptsOwn (idle : Idle node) (prevHash : HotStuffConsensus → Hash) :
    AcceptsOwn crates prevHash node := by
  intro timestamp block proposed
  have own := HotStuffConsensus.proposeBlock_eq_some crates proposed
  have nothing : node.mempool.getTransactions 1000 node.config.minGasPrice = [] := by
    refine List.eq_nil_iff_forall_not_mem.mpr fun tx member => ?_
    rw [Mempool.getTransactions_eq] at member
    obtain ⟨hash, price, above, listed, -⟩ :=
      (Mempool.mem_selection _ _).mp (List.mem_of_mem_take member)
    rw [idle.empty price above] at listed
    cases listed
  exact absurd (own.selection.symm.trans nothing) own.nonempty

theorem roundCall_idle (idle : Idle node) (call : RoundCall) (low : Unselectable node call) :
    Idle (roundCall crates node call).2 := by
  cases call with
  | submit tx =>
    refine ⟨idle.registered, fun price above => ?_⟩
    change (node.mempool.addTransaction crates tx).2.bucket price = []
    rcases Mempool.addTransaction_cases crates node.mempool tx with ⟨_, same⟩ | ⟨room, same⟩
    · rw [same]
      exact idle.empty price above
    · have cheap := low.resolve_left room
      have apart : price ≠ tx.gasPrice := by
        rintro rfl
        exact BitVec.not_le.mpr cheap above
      rw [same, Mempool.added_bucket, if_neg apart, List.append_nil]
      exact idle.empty price above
  | propose prevHash timestamp => exact idle
  | finalize block =>
    refine ⟨idle.registered, fun price above => ?_⟩
    change (node.mempool.removeTransactions _).bucket price = []
    rw [Mempool.removeTransactions_bucket, idle.empty price above]
    rfl

theorem unselectable_of_acceptsOwn (rejects : RejectsEmpty crates.secp)
    (prevHash : HotStuffConsensus → Hash)
    (registered : node.myAddress ∈ node.validatorSet.validators) (call : RoundCall)
    (after : AcceptsOwn crates prevHash (roundCall crates node call).2) :
    Unselectable node call := by
  cases call with
  | propose prevHash timestamp => trivial
  | finalize block => trivial
  | submit tx =>
    by_contra selectable
    obtain ⟨room, priced⟩ := not_or.mp selectable
    have pool : (roundCall crates node (.submit tx)).2.mempool = node.mempool.added crates tx :=
      ((Mempool.addTransaction_cases crates node.mempool tx).resolve_left
        fun full => room full.1).2
    have listed : tx ∈ (node.mempool.added crates tx).selection node.config.minGasPrice := by
      refine (Mempool.mem_selection _ _).mpr ⟨tx.hash crates, tx.gasPrice, BitVec.not_lt.mp priced,
        ?_, ?_⟩
      · rw [Mempool.added_bucket, if_pos rfl]
        exact List.mem_append_right _ (List.mem_singleton_self _)
      · rw [Mempool.added_lookup, if_pos rfl]
    have selects : (roundCall crates node (.submit tx)).2.mempool.getTransactions 1000
        node.config.minGasPrice ≠ [] := by
      rw [pool, Mempool.getTransactions_eq]
      exact fun none => (List.ne_nil_of_mem listed) ((List.take_eq_nil_iff.mp none).resolve_left
        (by decide))
    obtain ⟨block, proposed, -⟩ := HotStuffConsensus.proposes crates
      (roundCall crates node (.submit tx)).2 (prevHash (roundCall crates node (.submit tx)).2) 0
      selects
    have still : (roundCall crates node (.submit tx)).2.myAddress ∈
        (roundCall crates node (.submit tx)).2.validatorSet.validators := registered
    have refused := proposal_refused rejects still proposed
    exact Bool.false_ne_true (refused.symm.trans (after 0 block proposed))

end Signatures

/-- A registered engine accepts its own proposals along a run exactly if no submission
ever lets it propose. -/
theorem ownProposals_iff (crates : Crates) (rejects : RejectsEmpty crates.secp)
    (config : ChainConfig) (set : ValidatorSet) (address : Address)
    (registered : address ∈ set.validators) (prevHash : HotStuffConsensus → Hash)
    (calls : List RoundCall) :
    Runs.Visits (roundCall crates) (AcceptsOwn crates prevHash)
        (HotStuffConsensus.new config set address) calls ↔
      Runs.Meets (roundCall crates) Unselectable (HotStuffConsensus.new config set address)
        calls :=
  Runs.visits_iff_meets_of_stronger _ (fun _ idle => idle.acceptsOwn prevHash)
    (fun _ call idle low => roundCall_idle idle call low)
    (fun _ call idle after =>
      unselectable_of_acceptsOwn rejects prevHash idle.registered call after)
    ⟨registered, fun _ _ => rfl⟩ calls

/-! ## One submission -/

namespace Sample

def compactSecp : Secp256k1 :=
  { secp with
    Signature := Bytes
    signatureFromCompact := fun bytes => if bytes.length = 64 then some bytes else none
    verifyEcdsa := fun _ _ _ => true }

def compactCrates : Crates := { crates with secp := compactSecp }

theorem compact_rejects : RejectsEmpty compactCrates.secp := by
  intro signature parsed
  cases parsed

def ownSet : ValidatorSet := ValidatorSet.new.addValidator (validator 0 1)

def leaderNode : HotStuffConsensus :=
  HotStuffConsensus.new ChainConfig.default ownSet (Sample.address 0)

theorem leaderNode_leads (round : U64) : ownSet.getLeader round = some (Sample.address 0) := by
  have only : (ownSet.validators.entries.map fun entry => entry.2.address) =
      {Sample.address 0} := rfl
  rw [ValidatorSet.getLeader, only, Multiset.sort_singleton]
  simp [Nat.mod_one]

def latestHash (node : HotStuffConsensus) : Hash :=
  (node.getBlock node.getLatestHeight).elim Hash.zero fun block =>
    block.header.hash compactCrates

/-- A block of height zero, then one submission. -/
def genesisCalls (gasPrice : U128) : List RoundCall :=
  [.finalize (block 0 0 Hash.zero), .submit (offer .transfer 1 gasPrice)]

def submittedNode : HotStuffConsensus :=
  (Runs.run (roundCall compactCrates) leaderNode (genesisCalls 10)).2

theorem submittedNode_selects :
    submittedNode.mempool.getTransactions 1000 submittedNode.config.minGasPrice =
      [offer .transfer 1 10] := by
  change submittedNode.mempool.getTransactions 1000 1 = _
  rw [Mempool.getTransactions_eq, Mempool.selection_listed _ _ [10] (by decide) (by decide)
    (by decide) (by simp)]
  decide

end Sample

/-- The block proposed after one submission is finalized, and the latest height stays zero. -/
theorem finalized_height_unnoticed :
    ∃ block, Sample.submittedNode.proposeBlock Sample.compactCrates Hash.zero 0 = some block ∧
      (Sample.submittedNode.finalizeBlock Sample.compactCrates block).getLatestHeight = 0 ∧
      (Sample.submittedNode.finalizeBlock Sample.compactCrates block).greatestFinalized = 1 ∧
      ¬ Runs.Visits (roundCall Sample.compactCrates)
        (HotStuffConsensus.Extends Sample.compactCrates) Sample.leaderNode
        (Sample.genesisCalls 10 ++ [.propose Hash.zero 0, .finalize block]) := by
  obtain ⟨block, proposed, -⟩ := HotStuffConsensus.proposes Sample.compactCrates
    Sample.submittedNode Hash.zero 0 (by rw [Sample.submittedNode_selects]; decide)
  have height := (HotStuffConsensus.proposeBlock_eq_some _ proposed).height
  have greatest : (Sample.submittedNode.finalizeBlock Sample.compactCrates
      block).greatestFinalized = 1 := by
    rw [finalize_greatest, height]
    decide
  refine ⟨block, proposed, rfl, greatest, fun visits => ?_⟩
  have last := (visits _ [] (List.append_nil _).symm).latest
  have equal : 0 = 1 := last.trans greatest
  exact absurd equal (by decide)

theorem ownProposals_sample :
    Runs.Visits (roundCall Sample.compactCrates)
      (AcceptsOwn Sample.compactCrates Sample.latestHash) Sample.leaderNode
      (Sample.genesisCalls 0) :=
  (ownProposals_iff Sample.compactCrates Sample.compact_rejects ChainConfig.default Sample.ownSet
    (Sample.address 0) (by decide) Sample.latestHash (Sample.genesisCalls 0)).mpr
    ⟨trivial, .inr (by decide), trivial⟩

/-- The registered leader of every height refuses the block it proposes. -/
theorem own_proposal_refused :
    RejectsEmpty Sample.compactCrates.secp ∧
      Sample.ownSet.getLeader (Sample.submittedNode.currentHeight + 1) =
        some Sample.submittedNode.myAddress ∧
      (∃ block, Sample.submittedNode.proposeBlock Sample.compactCrates
          (Sample.latestHash Sample.submittedNode) 0 = some block ∧
        Sample.submittedNode.validateBlock Sample.compactCrates block = false) ∧
      ¬ Runs.Visits (roundCall Sample.compactCrates)
        (AcceptsOwn Sample.compactCrates Sample.latestHash) Sample.leaderNode
        (Sample.genesisCalls 10) := by
  obtain ⟨block, proposed, -⟩ := HotStuffConsensus.proposes Sample.compactCrates
    Sample.submittedNode (Sample.latestHash Sample.submittedNode) 0
    (by rw [Sample.submittedNode_selects]; decide)
  have refused := proposal_refused Sample.compact_rejects (by decide) proposed
  refine ⟨Sample.compact_rejects, Sample.leaderNode_leads _, ⟨block, proposed, refused⟩,
    fun visits => ?_⟩
  have accepted := visits _ [] (List.append_nil _).symm 0 block proposed
  exact Bool.false_ne_true (refused.symm.trans accepted)

end ProtonChain.Consensus
