import Mathlib.Data.List.Rotate
import ProtonChain.Consensus.Quorum

/-! Random committees.

The shuffle is seeded with the round and permutes positions, so it is the same on every
node. What it permutes is the map in the order of its iterator, which is each node's own.
-/

set_option autoImplicit false

namespace ProtonChain.Consensus

/-- `shuffle` with a generator that is seeded first: a permutation of the positions for
every seed and length. -/
abbrev Shuffle := Bytes → (length : Nat) → Equiv.Perm (Fin length)

/-- The element at each position is fetched from where the permutation has it. -/
def shuffled {A : Type} (perm : (length : Nat) → Equiv.Perm (Fin length)) (items : List A) :
    List A :=
  List.ofFn fun position => items[perm items.length position]

/-- The round in the first eight bytes of the seed. -/
def seedOf (round : U64) : Bytes := toLeBytes round ++ List.replicate 24 0

def randomCommittee (shuffle : Shuffle) (order : List (Address × Validator)) (round : U64)
    (size : Nat) : List Address :=
  (shuffled (shuffle (seedOf round)) (order.map Prod.fst)).take size

/-- Nodes that hold the same validators draw one committee, in whatever order each of them
iterates over its map. -/
def CommitteeAgreed (shuffle : Shuffle) (set : ValidatorSet) (round : U64) (size : Nat) : Prop :=
  ∀ (other : ValidatorSet) (order order' : List (Address × Validator)),
    other.validators = set.validators →
    FiniteMap.Listing set.validators order → FiniteMap.Listing other.validators order' →
      randomCommittee shuffle order round size = randomCommittee shuffle order' round size

/-- The element in front comes from one position, whatever list of that length is shuffled. -/
theorem shuffled_head {A : Type} (perm : (length : Nat) → Equiv.Perm (Fin length)) {length : Nat}
    (filled : 0 < length) (items : List A) (width : items.length = length) :
    (shuffled perm items)[0]? = items[(perm length ⟨0, filled⟩).val]? := by
  subst width
  simp [shuffled, filled]

/-- A list without repetitions that is turned by one has another element everywhere. -/
theorem rotate_apart {A : Type} {items : List A} (distinct : items.Nodup)
    (several : 2 ≤ items.length) {position : Nat} (inside : position < items.length) :
    (items.rotate 1)[position]? ≠ items[position]? := by
  have next : (position + 1) % items.length < items.length := Nat.mod_lt _ (by omega)
  rw [List.getElem?_rotate inside, List.getElem?_eq_getElem next, List.getElem?_eq_getElem inside]
  intro same
  have moved := distinct.getElem_inj_iff.mp (Option.some.inj same)
  by_cases last : position + 1 = items.length
  · rw [last, Nat.mod_self] at moved
    omega
  · rw [Nat.mod_eq_of_lt (by omega)] at moved
    omega

theorem committee_head (shuffle : Shuffle) (order : List (Address × Validator)) (round : U64)
    {size : Nat} (drawn : 0 < size) :
    (randomCommittee shuffle order round size)[0]? =
      (shuffled (shuffle (seedOf round)) (order.map Prod.fst))[0]? :=
  List.getElem?_take_of_lt drawn

theorem committee_rotate_ne (shuffle : Shuffle) {order : List (Address × Validator)} (round : U64)
    {size : Nat} (distinct : (order.map Prod.fst).Nodup) (several : 2 ≤ order.length)
    (drawn : 0 < size) :
    randomCommittee shuffle (order.rotate 1) round size ≠
      randomCommittee shuffle order round size := by
  intro same
  have filled : 0 < order.length := by omega
  have heads := congrArg (fun committee => committee[0]?) same
  simp only [committee_head shuffle _ round drawn] at heads
  rw [shuffled_head _ filled (order.map Prod.fst) (by simp),
    shuffled_head _ filled ((order.rotate 1).map Prod.fst) (by simp), List.map_rotate] at heads
  apply rotate_apart distinct _ _ heads
  · simpa using several
  · simp

theorem not_committeeAgreed (shuffle : Shuffle) (set : ValidatorSet) (round : U64) {size : Nat}
    (several : 2 ≤ set.validatorCount) (drawn : 0 < size) :
    ¬ CommitteeAgreed shuffle set round size := by
  intro agreed
  obtain ⟨order, listing⟩ := FiniteMap.listing_exists set.validators
  have turned := listing.of_perm (List.rotate_perm order 1)
  have long : 2 ≤ order.length := by
    rw [listing.length_eq]
    exact several
  exact committee_rotate_ne shuffle round listing.distinct long drawn
    (agreed set _ _ rfl turned listing)

/-- The nodes draw one committee exactly if there is nothing to order or nobody is drawn. -/
theorem committeeAgreed_iff (shuffle : Shuffle) (set : ValidatorSet) (round : U64) (size : Nat) :
    CommitteeAgreed shuffle set round size ↔ set.validatorCount < 2 ∨ size = 0 := by
  constructor
  · intro agreed
    by_contra neither
    rw [not_or] at neither
    exact not_committeeAgreed shuffle set round (Nat.le_of_not_lt neither.1)
      (Nat.pos_of_ne_zero neither.2) agreed
  · intro condition other order order' same listing listing'
    rw [same] at listing'
    cases condition with
    | inl few =>
      rw [listing.eq_of_card_le listing' (Nat.le_of_lt_succ few)]
    | inr none =>
      subst none
      simp [randomCommittee]

/-- Of three validators no shuffle draws the same member on every node. -/
theorem committees_disagree : ¬ ∃ shuffle, CommitteeAgreed shuffle Sample.three 0 1 := by
  rintro ⟨shuffle, agreed⟩
  exact not_committeeAgreed shuffle Sample.three 0 (by decide) (by decide) agreed

end ProtonChain.Consensus
