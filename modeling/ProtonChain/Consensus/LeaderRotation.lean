import ProtonChain.Consensus.Leader
import ProtonChain.Consensus.Quorum
import ProtonChain.Library.Rotation

/-! Leaders, round after round.

The leader is read off the sorted addresses, so the order in which the map is iterated has
no say in it, and in as many rounds as there are validators each of them has one turn.
-/

set_option autoImplicit false

namespace ProtonChain.Consensus.ValidatorSet

/-- `get_leader` along one order of the map: the validators are collected and sorted by
address, and the round takes one of them. -/
def leaderAlong (order : List (Address × Validator)) (round : U64) : Option Address :=
  let sorted := (order.map Prod.snd).mergeSort fun first second => first.address.le second.address
  if sorted.isEmpty then none
  else (sorted[round.toNat % sorted.length]?).map Validator.address

/-- The addresses as the loop over the map meets them, sorted. -/
def ranking (addresses : List Address) : List Address :=
  addresses.mergeSort fun first second => first.le second

theorem sortedAddresses_nodup (set : ValidatorSet) : set.sortedAddresses.Nodup := by
  have keys : (set.validators.entries.map fun entry => entry.2.address) =
      set.validators.entries.keys := by
    apply Multiset.map_congr rfl
    intro entry member
    exact set.keyed entry.1 entry.2 (Finmap.lookup_eq_some_iff.mpr member)
  rw [sortedAddresses, ← Multiset.coe_nodup, Multiset.sort_eq, keys]
  exact set.validators.nodupKeys.nodup_keys

theorem ranking_perm (addresses : List Address) : (ranking addresses).Perm addresses :=
  List.mergeSort_perm addresses _

theorem ranking_congr {addresses other : List Address} (perm : addresses.Perm other) :
    ranking addresses = ranking other := by
  have same : (ranking addresses).Perm (ranking other) :=
    (ranking_perm addresses).trans (perm.trans (ranking_perm other).symm)
  exact same.eq_of_pairwise' (List.pairwise_mergeSort' Address.le addresses)
    (List.pairwise_mergeSort' Address.le other)

section Order
variable {set : ValidatorSet} {order : List (Address × Validator)}
  (listing : FiniteMap.Listing set.validators order)
include listing

theorem addresses_eq : (order.map Prod.snd).map Validator.address = order.map Prod.fst := by
  rw [List.map_map]
  apply List.map_congr_left
  intro entry member
  exact set.keyed entry.1 entry.2 ((listing.listed entry.1 entry.2).mp member)

theorem leaderAlong_eq_turn (round : U64) :
    leaderAlong order round = Rotation.turn (ranking (order.map Prod.fst)) round.toNat := by
  have sorted : ((order.map Prod.snd).mergeSort fun first second =>
      first.address.le second.address).map Validator.address = ranking (order.map Prod.fst) := by
    rw [← addresses_eq listing]
    exact List.map_mergeSort fun _ _ _ _ => rfl
  unfold leaderAlong Rotation.turn
  rw [← sorted, List.length_map, List.getElem?_map]
  simp only []
  split
  · rename_i empty
    rw [List.isEmpty_iff.mp empty]
    rfl
  · rfl

theorem ranking_nodup : (ranking (order.map Prod.fst)).Nodup :=
  (ranking_perm _).nodup_iff.mpr listing.distinct

theorem length_ranking : (ranking (order.map Prod.fst)).length = set.validatorCount := by
  rw [(ranking_perm _).length_eq, List.length_map, listing.length_eq, validatorCount]

theorem mem_ranking (address : Address) :
    address ∈ ranking (order.map Prod.fst) ↔ address ∈ set.validators := by
  rw [(ranking_perm _).mem_iff, listing.mem_keys]

/-- The definition by the entries of the map is the one along any of its orders. -/
theorem leaderAlong_eq_getLeader (round : U64) : leaderAlong order round = set.getLeader round := by
  have perm : set.sortedAddresses.Perm (ranking (order.map Prod.fst)) := by
    rw [List.perm_ext_iff_of_nodup set.sortedAddresses_nodup (ranking_nodup listing)]
    intro address
    rw [mem_sortedAddresses, mem_ranking listing]
  have same : set.sortedAddresses = ranking (order.map Prod.fst) :=
    perm.eq_of_pairwise' (Multiset.pairwise_sort _ _) (List.pairwise_mergeSort' Address.le _)
  rw [leaderAlong_eq_turn listing, getLeader_eq, same, Rotation.turn]

end Order

theorem toNat_add_offset (start : U64) {offset : Nat} (inside : start.toNat + offset < 2 ^ 64) :
    (start + BitVec.ofNat 64 offset).toNat = start.toNat + offset := by
  rw [BitVec.toNat_add, BitVec.toNat_ofNat, Nat.add_mod_mod, Nat.mod_eq_of_lt inside]

/-- The leader of a round is decided by the registered addresses, and of as many rounds as
there are validators, one after another, each validator leads one. -/
theorem leaders_rotate (set : ValidatorSet) :
    (∀ (other : ValidatorSet) (order order' : List (Address × Validator)),
      (∀ address, address ∈ other.validators ↔ address ∈ set.validators) →
      FiniteMap.Listing set.validators order → FiniteMap.Listing other.validators order' →
        ∀ round, leaderAlong order round = leaderAlong order' round) ∧
      ∀ order, FiniteMap.Listing set.validators order →
        ∀ start : U64, start.toNat + set.validatorCount ≤ 2 ^ 64 →
          ∀ address ∈ set.validators, ∃! offset, offset < set.validatorCount ∧
            leaderAlong order (start + BitVec.ofNat 64 offset) = some address := by
  constructor
  · intro other order order' same listing listing' round
    have perm : (order.map Prod.fst).Perm (order'.map Prod.fst) := by
      rw [List.perm_ext_iff_of_nodup listing.distinct listing'.distinct]
      intro address
      rw [listing.mem_keys, listing'.mem_keys, same]
    rw [leaderAlong_eq_turn listing, leaderAlong_eq_turn listing', ranking_congr perm]
  · intro order listing start window address listed
    have turns := Rotation.existsUnique_turn (ranking_nodup listing)
      ((mem_ranking listing address).mpr listed) start.toNat
    rw [length_ranking listing] at turns
    apply (existsUnique_congr _).mp turns
    intro offset
    apply and_congr_right
    intro inside
    rw [leaderAlong_eq_turn listing, toNat_add_offset start (by omega)]

/-! ## Three validators -/

namespace Sample

open Consensus.Sample

def threeOrder : List (Address × Validator) :=
  [(ProtonChain.Sample.address 3, validator 3 1), (ProtonChain.Sample.address 2, validator 2 1),
    (ProtonChain.Sample.address 1, validator 1 1)]

theorem listing_three : FiniteMap.Listing three.validators threeOrder :=
  ((FiniteMap.listing_empty.insert _ Finmap.notMem_empty).insert _ (by decide)).insert _ (by decide)

end Sample

/-- Three validators in the last rounds that there are. -/
theorem leaders_rotate_sample :
    (∀ round, leaderAlong Sample.threeOrder round = leaderAlong Sample.threeOrder.reverse round) ∧
      ∃! offset, offset < 3 ∧ leaderAlong Sample.threeOrder
        (BitVec.ofNat 64 (2 ^ 64 - 3) + BitVec.ofNat 64 offset) =
          some (ProtonChain.Sample.address 2) := by
  obtain ⟨canonical, rotate⟩ := leaders_rotate Consensus.Sample.three
  constructor
  · exact canonical _ _ _ (fun _ => Iff.rfl) Sample.listing_three Sample.listing_three.reverse
  · exact rotate _ Sample.listing_three (BitVec.ofNat 64 (2 ^ 64 - 3)) (by decide) _ (by decide)

end ProtonChain.Consensus.ValidatorSet
