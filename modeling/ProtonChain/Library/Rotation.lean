import Mathlib.Data.List.Nodup
import Mathlib.Data.Nat.ModEq

/-! Members of a list that take turns, round after round.

Whatever the first round, every member has exactly one turn in as many rounds as there are
members.
-/

set_option autoImplicit false

namespace Rotation

variable {A : Type} {members : List A}

/-- The member whose turn it is. -/
def turn (members : List A) (round : Nat) : Option A := members[round % members.length]?

theorem turn_eq_some (distinct : members.Nodup) {position : Nat}
    (inside : position < members.length) (round : Nat) :
    turn members round = some members[position] ↔ round % members.length = position := by
  have bound : round % members.length < members.length := Nat.mod_lt _ (by omega)
  rw [turn, List.getElem?_eq_getElem bound, Option.some.injEq]
  exact distinct.getElem_inj_iff

theorem exists_offset {count position : Nat} (inside : position < count) (start : Nat) :
    ∃ offset < count, (start + offset) % count = position := by
  have positive : 0 < count := by omega
  refine ⟨(position + (count - start % count)) % count, Nat.mod_lt _ positive, ?_⟩
  have below : start % count < count := Nat.mod_lt _ positive
  have whole : start % count + (position + (count - start % count)) = position + count := by omega
  rw [Nat.add_mod_mod, ← Nat.mod_add_mod, whole, Nat.add_mod_right, Nat.mod_eq_of_lt inside]

theorem offset_unique {count start offset other : Nat} (inside : offset < count)
    (inside' : other < count) (same : (start + offset) % count = (start + other) % count) :
    offset = other := by
  have congruent : offset ≡ other [MOD count] := Nat.ModEq.add_left_cancel' start same
  exact congruent.eq_of_lt_of_lt inside inside'

theorem existsUnique_turn (distinct : members.Nodup) {member : A} (listed : member ∈ members)
    (start : Nat) :
    ∃! offset, offset < members.length ∧ turn members (start + offset) = some member := by
  obtain ⟨position, inside, rfl⟩ := List.mem_iff_getElem.mp listed
  simp only [turn_eq_some distinct inside]
  obtain ⟨offset, below, arrives⟩ := exists_offset inside start
  refine ⟨offset, ⟨below, arrives⟩, ?_⟩
  intro other later
  exact offset_unique later.1 below (later.2.trans arrives.symm)

end Rotation
