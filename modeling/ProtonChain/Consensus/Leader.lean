import ProtonChain.Consensus.Finality

/-! Who may propose.

The leader and the signature are looked at only where a lookup finds something.
The leader of a set with validators is always registered, so the tests bind
exactly if there is one.
-/

set_option autoImplicit false

namespace ProtonChain.Consensus

namespace ValidatorSet

variable (set : ValidatorSet)

/-- The addresses the leaders are drawn from. -/
def sortedAddresses : List Address :=
  (set.validators.entries.map fun entry => entry.2.address).sort Address.le

theorem mem_sortedAddresses (address : Address) :
    address ∈ set.sortedAddresses ↔ address ∈ set.validators := by
  rw [sortedAddresses, Multiset.mem_sort, Multiset.mem_map]
  constructor
  · rintro ⟨⟨key, validator⟩, member, rfl⟩
    have found := Finmap.lookup_eq_some_iff.mpr member
    rw [set.keyed key validator found]
    exact Finmap.mem_of_lookup_eq_some found
  · intro listed
    obtain ⟨validator, found⟩ := Option.isSome_iff_exists.mp (Finmap.lookup_isSome.mpr listed)
    exact ⟨⟨address, validator⟩, Finmap.lookup_eq_some_iff.mp found,
      set.keyed address validator found⟩

theorem getLeader_eq (round : U64) :
    set.getLeader round = set.sortedAddresses[round.toNat % set.sortedAddresses.length]? := by
  change (if set.sortedAddresses.isEmpty then none else _) = _
  split
  · rename_i empty
    rw [List.isEmpty_iff.mp empty]
    rfl
  · rfl

theorem getLeader_registered {round : U64} {address : Address}
    (leads : set.getLeader round = some address) : address ∈ set.validators := by
  rw [getLeader_eq] at leads
  exact (set.mem_sortedAddresses address).mp (List.mem_of_getElem? leads)

theorem exists_registered (populated : set.validators ≠ ∅) :
    ∃ address, address ∈ set.validators := by
  by_contra nobody
  refine populated (Finmap.ext_lookup fun address => ?_)
  rw [Finmap.lookup_empty, Finmap.lookup_eq_none]
  exact fun listed => nobody ⟨address, listed⟩

theorem exists_getLeader (round : U64) (populated : set.validators ≠ ∅) :
    ∃ leader, set.getLeader round = some leader := by
  obtain ⟨address, listed⟩ := set.exists_registered populated
  have long := List.length_pos_of_mem ((set.mem_sortedAddresses address).mpr listed)
  have inside := Nat.mod_lt round.toNat long
  exact ⟨_, (set.getLeader_eq round).trans (List.getElem?_eq_getElem inside)⟩

end ValidatorSet

/-! ## Acceptance and authority -/

section Authority
variable (crates : Crates) (node : HotStuffConsensus) (block : Block)

def Authorized (header : BlockHeader) : Prop :=
  ∃ validator, node.validatorSet.getValidator header.validator = some validator ∧
    node.validatorSet.getLeader header.height = some header.validator ∧
    validator.verifySignature crates.secp (header.hash crates) header.signature = true

theorem authorized_of_accepted (populated : node.validatorSet.validators ≠ ∅)
    (accepted : HotStuffConsensus.Accepted crates node block) :
    Authorized crates node block.header := by
  obtain ⟨leader, leads⟩ := node.validatorSet.exists_getLeader block.header.height populated
  have same : leader = block.header.validator := by
    have agrees := accepted.leader
    rw [HotStuffConsensus.otherLeader, leads] at agrees
    exact not_not.mp (of_decide_eq_false agrees)
  rw [same] at leads
  obtain ⟨validator, found⟩ := Option.isSome_iff_exists.mp
    (Finmap.lookup_isSome.mpr (node.validatorSet.getLeader_registered leads))
  refine ⟨validator, found, leads, ?_⟩
  have signed := accepted.signed
  rw [HotStuffConsensus.badSignature, ValidatorSet.getValidator, found] at signed
  simpa using signed

/-- Acceptance implies authority exactly if there is a validator, or the parent or the
Merkle root is refused already. -/
theorem authorized_iff :
    (node.validateBlock crates block = true → Authorized crates node block.header) ↔
      node.validatorSet.validators ≠ ∅ ∨
        (0 < block.header.height ∧ block.header.height - 1 ∉ node.blocks) ∨
        MerkleTree.root crates.sha3 (block.transactions.map (Transaction.hash crates)) ≠
          block.header.merkleRoot := by
  rw [HotStuffConsensus.validateBlock_iff]
  by_cases unregistered : node.validatorSet.validators = ∅
  · rw [HotStuffConsensus.accepted_unregistered crates node block unregistered]
    have unauthorized : ¬ Authorized crates node block.header := by
      rintro ⟨validator, found, -⟩
      rw [ValidatorSet.getValidator, unregistered] at found
      cases found
    simp only [unauthorized, unregistered, imp_false, not_and_or, ne_eq, not_true, false_or,
      Classical.not_imp]
  · exact iff_of_true (authorized_of_accepted crates node block unregistered) (.inl unregistered)

end Authority

/-- A block of height zero with no signature passes where no validator is registered. -/
theorem unsigned_block_accepted :
    Sample.node.validateBlock Sample.crates (Sample.block 0 0 Hash.zero) = true ∧
      ¬ Authorized Sample.crates Sample.node (Sample.block 0 0 Hash.zero).header := by
  refine ⟨Sample.accepts Sample.node 0 0 Hash.zero rfl (by decide), ?_⟩
  rintro ⟨validator, found, -⟩
  cases found

end ProtonChain.Consensus
