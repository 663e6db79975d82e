import ProtonChain.Consensus.Commitment

/-! Merkle roots of lists of one length.

The loop halves the list until one hash is left, so as many levels as the length has
doublings are enough. Between lists of one length the padding of odd levels makes no
difference, and the root tells them apart as far as the hash tells the strings it is
given apart.
-/

set_option autoImplicit false

namespace ProtonChain.MerkleTree

open Consensus

def hashed (sha3 : Sha3) (leaves : List Hash) : List Bytes :=
  (Pairing.joined (combine sha3) leaves).map fun pair => pairMessage pair.1 pair.2

/-- The loop ends, with one hash, for every list that is not empty. -/
theorem loop_ends (sha3 : Sha3) (leaves : List Hash) (filled : leaves ≠ []) :
    Pairing.reduce (combine sha3) leaves = some (root sha3 leaves) ∧
      (Pairing.level (combine sha3))^[Nat.clog 2 leaves.length] leaves = [root sha3 leaves] := by
  obtain ⟨result, reduced, levels⟩ := Pairing.iterate_level (combine sha3) leaves filled
  have same : root sha3 leaves = result := by simp [root, reduced]
  rw [same]
  exact ⟨reduced, levels⟩

theorem root_nil (sha3 : Sha3) : root sha3 [] = Hash.zero := by
  rw [root, Pairing.reduce_nil, Option.getD_none]

/-- Pairs that are hashed to one digest are the same pair. -/
theorem joined_injOn (sha3 : Sha3) (first second : List Hash)
    (free : Set.InjOn (Hash.new sha3)
      {message | message ∈ hashed sha3 first ∨ message ∈ hashed sha3 second}) :
    Set.InjOn (fun pair : Hash × Hash => combine sha3 pair.1 pair.2)
      {pair | pair ∈ Pairing.joined (combine sha3) first ∨
        pair ∈ Pairing.joined (combine sha3) second} := by
  have listed : ∀ pair : Hash × Hash, (pair ∈ Pairing.joined (combine sha3) first ∨
      pair ∈ Pairing.joined (combine sha3) second) →
        pairMessage pair.1 pair.2 ∈ hashed sha3 first ∨
          pairMessage pair.1 pair.2 ∈ hashed sha3 second := by
    intro pair member
    apply member.imp
    · exact List.mem_map_of_mem
    · exact List.mem_map_of_mem
  intro pair member other member' same
  exact pair_eq (free (listed pair member) (listed other member') same)

/-- The loop ends on every list, at once if it is empty, and of lists of one length no two
have one root. -/
theorem root_injective (sha3 : Sha3) (first second : List Hash)
    (width : first.length = second.length)
    (free : Set.InjOn (Hash.new sha3)
      {message | message ∈ hashed sha3 first ∨ message ∈ hashed sha3 second}) :
    root sha3 [] = Hash.zero ∧
      (∀ leaves ≠ [], (Pairing.level (combine sha3))^[Nat.clog 2 leaves.length] leaves =
        [root sha3 leaves]) ∧
      (root sha3 first = root sha3 second → first = second) := by
  refine ⟨root_nil sha3, ?_, ?_⟩
  · intro leaves filled
    exact (loop_ends sha3 leaves filled).2
  · intro same
    apply Pairing.eq_of_reduce_eq (combine sha3) first second width
      (joined_injOn sha3 first second free)
    cases first with
    | nil => rw [List.length_eq_zero_iff.mp width.symm]
    | cons head rest =>
      have filled : second ≠ [] := by
        rintro rfl
        simp at width
      rw [(loop_ends sha3 _ (List.cons_ne_nil head rest)).1, (loop_ends sha3 second filled).1, same]

theorem hashed_two (sha3 : Sha3) (first second : Hash) :
    hashed sha3 [first, second] = [pairMessage first second] := by
  simp [hashed, Pairing.joined, Pairing.pairs, Pairing.level]

/-- Two digests in either order have different roots under SHA3-256. -/
theorem root_injective_sample :
    let first : Hash := ⟨Sample.digest Sample.payment1⟩
    let second : Hash := ⟨Sample.digest Sample.payment2⟩
    root Sample.listedSha3 [first, second] ≠ root Sample.listedSha3 [second, first] := by
  intro first second same
  have apart : ∀ message ∈ [pairMessage first second, pairMessage second first],
      ∀ other ∈ [pairMessage first second, pairMessage second first],
        Hash.new Sample.listedSha3 message = Hash.new Sample.listedSha3 other →
          message = other := by
    decide +kernel
  have free : Set.InjOn (Hash.new Sample.listedSha3)
      {message | message ∈ hashed Sample.listedSha3 [first, second] ∨
        message ∈ hashed Sample.listedSha3 [second, first]} := by
    intro message member other member'
    apply apart message _ other _
    · simpa [hashed_two] using member
    · simpa [hashed_two] using member'
  have equal := (root_injective Sample.listedSha3 [first, second] [second, first] rfl free).2.2 same
  exact absurd equal (by decide +kernel)

end ProtonChain.MerkleTree
