import ProtonChain.Bincode
import ProtonChain.Consensus.HotStuff
import ProtonChain.Consensus.Quorum

/-! Finality and the hash chain along runs.

Storage overwrites what it finds at a height, and acceptance asks for a parent
without reading its hash. Each law is kept by a run exactly if every
finalization meets a condition on the blocks stored before it.
-/

set_option autoImplicit false

namespace ProtonChain.Consensus

/-! ## Finality -/

def KeepsBlocks (before after : Session) : Prop :=
  ∀ height block, before.node.getBlock height = some block →
    after.node.getBlock height = some block

/-- Finalization meets no other block at its height. -/
def KeepsHeight (session : Session) : Call → Prop
  | .validate _ => True
  | .finalize block =>
    ∀ stored, session.node.getBlock block.header.height = some stored → stored = block

theorem KeepsBlocks.trans {first second third : Session} (early : KeepsBlocks first second)
    (late : KeepsBlocks second third) : KeepsBlocks first third :=
  fun height block stored => late height block (early height block stored)

theorem call_keepsBlocks_iff (crates : Crates) (session : Session) (call : Call) :
    KeepsBlocks session (session.call crates call).2 ↔ KeepsHeight session call := by
  cases call with
  | validate block => exact iff_of_true (fun _ _ stored => stored) trivial
  | finalize block =>
    simp only [KeepsBlocks, KeepsHeight, Session.call,
      HotStuffConsensus.getBlock_finalizeBlock]
    constructor
    · intro keeps stored found
      have same := keeps _ stored found
      rw [if_pos rfl, Option.some.injEq] at same
      exact same.symm
    · intro same height stored found
      split
      · rename_i taken
        rw [same stored (taken ▸ found)]
      · exact found

/-- Along a run every stored block stays exactly if no finalization replaces a
block by a different one. -/
theorem finality_iff (crates : Crates) (node : HotStuffConsensus) (calls : List Call) :
    Runs.Persists (Session.call crates) KeepsBlocks (Session.start node) calls ↔
      Runs.Meets (Session.call crates) KeepsHeight (Session.start node) calls :=
  Runs.persists_iff_meets _ (fun _ _ _ stored => stored)
    (fun _ _ _ early late => early.trans late) (call_keepsBlocks_iff crates) _ _

/-! ## The hash chain -/

section Chain
variable (crates : Crates)

/-- Neighbouring heights are linked by the header hash. -/
def Linked (session : Session) : Prop :=
  ∀ height parent child, 0 < height → session.node.getBlock (height - 1) = some parent →
    session.node.getBlock height = some child →
      child.header.prevHash = parent.header.hash crates

/-- The stored heights reach down to zero, also below the accepted blocks. -/
structure Rooted (session : Session) : Prop where
  stored : ∀ height, 0 < height → height ∈ session.node.blocks →
    height - 1 ∈ session.node.blocks
  accepted : ∀ block ∈ session.accepted, 0 < block.header.height →
    block.header.height - 1 ∈ session.node.blocks

/-- Finalization names the hash of the stored parent, and replaces a block that
has a successor only under the same hash. -/
def LinksUp (session : Session) : Call → Prop
  | .validate _ => True
  | .finalize block =>
    (∀ parent, 0 < block.header.height →
      session.node.getBlock (block.header.height - 1) = some parent →
        block.header.prevHash = parent.header.hash crates) ∧
    ∀ stored child, 0 < block.header.height + 1 →
      session.node.getBlock block.header.height = some stored →
      session.node.getBlock (block.header.height + 1) = some child →
        block.header.hash crates = stored.header.hash crates

variable {crates}

theorem call_rooted (session : Session) (call : Call) (rooted : Rooted session)
    (permitted : session.Permitted call) : Rooted (session.call crates call).2 := by
  cases call with
  | validate block =>
    refine ⟨rooted.stored, fun accepted member => ?_⟩
    simp only [Session.call] at member
    split at member
    · rename_i verdict
      rcases List.mem_cons.mp member with rfl | earlier
      · exact ((session.node.validateBlock_iff crates accepted).mp verdict).parent
      · exact rooted.accepted accepted earlier
    · exact rooted.accepted accepted member
  | finalize block =>
    constructor
    · intro height above member
      rcases Finmap.mem_insert.mp member with rfl | before
      · exact Finmap.mem_insert.mpr (.inr (rooted.accepted block permitted above))
      · exact Finmap.mem_insert.mpr (.inr (rooted.stored height above before))
    · intro accepted member above
      exact Finmap.mem_insert.mpr (.inr (rooted.accepted accepted member above))

theorem finalize_linked {session : Session} {block : Block} (rooted : Rooted session)
    (linked : Linked crates session) (links : LinksUp crates session (.finalize block)) :
    Linked crates (session.call crates (.finalize block)).2 := by
  intro height parent child above below here
  simp only [Session.call, HotStuffConsensus.getBlock_finalizeBlock] at below here
  split at here
  · -- the new block over its parent
    rename_i top
    rw [if_neg (by bv_omega)] at below
    cases here
    subst top
    exact links.1 parent above below
  split at below
  · -- the new block below an old successor of the one it replaces
    rename_i bottom
    cases below
    have replaced := rooted.stored height above (Finmap.mem_of_lookup_eq_some here)
    obtain ⟨stored, found⟩ := Option.isSome_iff_exists.mp (Finmap.lookup_isSome.mpr replaced)
    have next : block.header.height + 1 = height := by bv_omega
    rw [links.2 stored child (by rw [next]; exact above) (by rw [← bottom]; exact found)
      (by rw [next]; exact here)]
    exact linked height stored child above found here
  · exact linked height parent child above below here

theorem linksUp_of_linked {session : Session} {block : Block} (linked : Linked crates session)
    (after : Linked crates (session.call crates (.finalize block)).2) :
    LinksUp crates session (.finalize block) := by
  simp only [Linked, Session.call, HotStuffConsensus.getBlock_finalizeBlock] at after
  constructor
  · intro parent above below
    refine after block.header.height parent block above ?_ (if_pos rfl)
    rw [if_neg (by bv_omega)]
    exact below
  · intro stored child above here next
    have below : block.header.height + 1 - 1 = block.header.height := by bv_omega
    have old := linked (block.header.height + 1) stored child above (by rw [below]; exact here) next
    have new := after (block.header.height + 1) block child above (by rw [below, if_pos rfl])
      (by rw [if_neg (by bv_omega)]; exact next)
    exact new.symm.trans old

theorem call_linked_iff (session : Session) (call : Call) (rooted : Rooted session)
    (linked : Linked crates session) :
    Linked crates (session.call crates call).2 ↔ LinksUp crates session call := by
  cases call with
  | validate block => exact iff_of_true linked trivial
  | finalize block => exact ⟨linksUp_of_linked linked, finalize_linked rooted linked⟩

theorem start_rooted {node : HotStuffConsensus} (fresh : node.blocks = ∅) :
    Rooted (Session.start node) := by
  constructor
  · intro height _ member
    rw [Session.start, fresh] at member
    exact absurd member Finmap.notMem_empty
  · intro block member
    cases member

theorem start_linked {node : HotStuffConsensus} (fresh : node.blocks = ∅) :
    Linked crates (Session.start node) := by
  intro height parent child _ _ here
  rw [Session.start, HotStuffConsensus.getBlock, fresh] at here
  cases here

variable (crates)

/-- A run from an empty store that finalizes accepted blocks only keeps the chain
exactly if every finalization links up. -/
theorem chain_iff (node : HotStuffConsensus) (fresh : node.blocks = ∅) (calls : List Call)
    (permitted : Runs.Meets (Session.call crates) Session.Permitted (Session.start node) calls) :
    Runs.Visits (Session.call crates) (Linked crates) (Session.start node) calls ↔
      Runs.Meets (Session.call crates) (LinksUp crates) (Session.start node) calls :=
  Runs.visits_iff_meets _ (fun session call rooted linked _ =>
      call_linked_iff session call rooted linked)
    call_rooted (start_linked fresh) (start_rooted fresh) calls permitted

end Chain

/-! ## Blocks without transactions -/

namespace Sample

def crates : Crates where
  sha3 := Sample.sha3
  bincodeTransaction tx := some (Bincode.transaction tx)
  bincodeHeader header := some (Bincode.header header)
  secp := secp

/-- The engine of a new node: no validator is registered. -/
def node : HotStuffConsensus :=
  HotStuffConsensus.new ChainConfig.default ValidatorSet.new (Sample.address 0)

def block (height timestamp : U64) (prevHash : Hash) : Block where
  header :=
    { version := 1, prevHash := prevHash, merkleRoot := Hash.zero, stateRoot := Hash.zero,
      shardId := 0, height := height, timestamp := timestamp, validator := Sample.address 0,
      signature := [], txCount := 0, gasUsed := 0, extraData := [] }
  transactions := []
  shardProofs := []

theorem accepts (engine : HotStuffConsensus) (height timestamp : U64) (prevHash : Hash)
    (unregistered : engine.validatorSet.validators = ∅)
    (parent : 0 < height → height - 1 ∈ engine.blocks) :
    engine.validateBlock crates (block height timestamp prevHash) = true := by
  rw [HotStuffConsensus.validateBlock_iff,
    HotStuffConsensus.accepted_unregistered crates engine _ unregistered]
  refine ⟨parent, ?_⟩
  change (Pairing.reduce (MerkleTree.combine Sample.sha3) []).getD Hash.zero = Hash.zero
  rw [Pairing.reduce_nil, Option.getD_none]

def twoBlocks (first second : Block) : List Call :=
  [.validate first, .finalize first, .validate second, .finalize second]

theorem twoBlocks_permitted (firstTime secondTime : U64) (secondHeight : U64)
    (low : secondHeight = 0 ∨ secondHeight = 1) (firstPrev secondPrev : Hash) :
    Runs.Meets (Session.call crates) Session.Permitted (Session.start node)
      (twoBlocks (block 0 firstTime firstPrev) (block secondHeight secondTime secondPrev)) := by
  have first := accepts node 0 firstTime firstPrev rfl (by decide)
  have parent : 0 < secondHeight → secondHeight - 1 ∈
      (node.finalizeBlock crates (block 0 firstTime firstPrev)).blocks := by
    intro above
    rcases low with rfl | rfl
    · exact absurd above (by decide)
    · exact Finmap.mem_insert.mpr (.inl rfl)
  have second := accepts (node.finalizeBlock crates (block 0 firstTime firstPrev)) secondHeight
    secondTime secondPrev rfl parent
  exact ⟨trivial, Session.permitted_of_valid crates (Session.start node) _ first, trivial,
    Session.permitted_of_valid crates _ _ second, trivial⟩

end Sample

/-- Two blocks of height zero are accepted one after the other, and the second
takes the place of the first. -/
theorem finalized_block_replaced :
    let calls := Sample.twoBlocks (Sample.block 0 0 Hash.zero) (Sample.block 0 1 Hash.zero)
    Runs.Meets (Session.call Sample.crates) Session.Permitted (Session.start Sample.node) calls ∧
      ¬ Runs.Persists (Session.call Sample.crates) KeepsBlocks (Session.start Sample.node)
        calls := by
  refine ⟨Sample.twoBlocks_permitted 0 1 0 (.inl rfl) _ _, fun persists => ?_⟩
  have kept := persists [.validate (Sample.block 0 0 Hash.zero),
    .finalize (Sample.block 0 0 Hash.zero)] [.validate (Sample.block 0 1 Hash.zero),
    .finalize (Sample.block 0 1 Hash.zero)] [] rfl 0 (Sample.block 0 0 Hash.zero)
  exact absurd (kept (by decide)) (by decide)

/-- A second block that names the header hash of the first. -/
theorem chain_sample :
    let first := Sample.block 0 0 Hash.zero
    Runs.Visits (Session.call Sample.crates) (Linked Sample.crates) (Session.start Sample.node)
      (Sample.twoBlocks first (Sample.block 1 1 (first.header.hash Sample.crates))) := by
  intro first
  refine (chain_iff Sample.crates Sample.node rfl _
    (Sample.twoBlocks_permitted 0 1 1 (.inr rfl) _ _)).mpr ⟨trivial, ?_, trivial, ?_, trivial⟩
  · exact ⟨fun _ above => absurd above (by decide), fun stored _ _ found => by cases found⟩
  · refine ⟨fun parent _ found => ?_, fun stored _ _ found => ?_⟩
    · simp only [Session.call] at found
      rw [HotStuffConsensus.getBlock_finalizeBlock, if_pos (by decide)] at found
      cases found
      rfl
    · cases found

/-- The second block names the zero hash as its parent and is accepted all the same. -/
theorem unlinked_block_stored :
    let calls := Sample.twoBlocks (Sample.block 0 0 Hash.zero) (Sample.block 1 1 Hash.zero)
    Runs.Meets (Session.call Sample.crates) Session.Permitted (Session.start Sample.node) calls ∧
      ¬ Runs.Visits (Session.call Sample.crates) (Linked Sample.crates)
        (Session.start Sample.node) calls := by
  refine ⟨Sample.twoBlocks_permitted 0 1 1 (.inr rfl) _ _, fun visits => ?_⟩
  have linked := visits _ [] (List.append_nil _).symm 1 (Sample.block 0 0 Hash.zero)
    (Sample.block 1 1 Hash.zero) (by decide) (by decide) (by decide)
  exact absurd linked (by decide)

end ProtonChain.Consensus
