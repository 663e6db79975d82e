import Mathlib.Data.List.Basic
import Mathlib.Data.Nat.Log
import Mathlib.Data.Set.Function
import Mathlib.Tactic.Ring

/-! Reduction of a list by levels of adjacent pairs.

An odd level pairs its last element with itself, so different lists can run
through the same reduction. The free reduction builds a binary tree, every other
one is a fold of that tree, and the tree is determined by its leaf sequence.
-/

set_option autoImplicit false

namespace Pairing

variable {A B : Type}

/-- One level: adjacent elements are joined, a last odd one with itself. -/
def level (join : A → A → A) : List A → List A
  | [] => []
  | [last] => [join last last]
  | first :: second :: rest => join first second :: level join rest

theorem length_level (join : A → A → A) (items : List A) :
    (level join items).length = (items.length + 1) / 2 := by
  induction items using level.induct with
  | case1 => simp [level]
  | case2 last => simp [level]
  | case3 first second rest ih =>
    simp only [level, List.length_cons, ih]
    omega

/-- Levels are taken while more than one element is left. -/
def reduce (join : A → A → A) : List A → Option A
  | [] => none
  | [last] => some last
  | first :: second :: rest => reduce join (level join (first :: second :: rest))
termination_by items => items.length
decreasing_by
  simp only [length_level, List.length_cons]
  omega

@[simp] theorem reduce_nil (join : A → A → A) : reduce join [] = none := by
  rw [reduce]

@[simp] theorem reduce_singleton (join : A → A → A) (last : A) :
    reduce join [last] = some last := by
  rw [reduce]

theorem level_closed {join : A → A → A} {good : A → Prop}
    (closed : ∀ left right, good left → good right → good (join left right)) (items : List A)
    (all : ∀ item ∈ items, good item) : ∀ item ∈ level join items, good item := by
  induction items using level.induct with
  | case1 => simp [level]
  | case2 last =>
    have ok := all last (by simp)
    simpa [level] using closed last last ok ok
  | case3 first second rest ih =>
    intro item member
    rcases List.mem_cons.mp member with rfl | member
    · exact closed first second (all first (by simp)) (all second (by simp))
    · exact ih (fun item member => all item (by simp [member])) item member

/-- A property of the items that joins keep holds of the result. -/
theorem reduce_closed {join : A → A → A} (good : A → Prop)
    (closed : ∀ left right, good left → good right → good (join left right)) (items : List A)
    (all : ∀ item ∈ items, good item) {result : A} (reduced : reduce join items = some result) :
    good result := by
  induction items using reduce.induct join with
  | case1 => simp at reduced
  | case2 last =>
    rw [reduce_singleton, Option.some.injEq] at reduced
    exact reduced ▸ all last (by simp)
  | case3 first second rest ih =>
    rw [reduce] at reduced
    exact ih (level_closed closed _ all) reduced

section Homomorphism
variable (join : A → A → A) (other : B → B → B) (f : A → B)

theorem level_map (hom : ∀ left right, f (join left right) = other (f left) (f right))
    (items : List A) : level other (items.map f) = (level join items).map f := by
  induction items using level.induct with
  | case1 => rfl
  | case2 last => simp [level, hom]
  | case3 first second rest ih => simp [level, hom, ih]

/-- The loop commutes with every map that respects the join. -/
theorem reduce_map (hom : ∀ left right, f (join left right) = other (f left) (f right))
    (items : List A) : reduce other (items.map f) = (reduce join items).map f := by
  induction items using reduce.induct join with
  | case1 => simp
  | case2 last => simp
  | case3 first second rest ih =>
    rw [List.map_cons, List.map_cons, reduce, reduce, ← ih, ← level_map join other f hom]
    simp only [List.map_cons]

end Homomorphism

/-! ## The free reduction -/

inductive Tree (A : Type) where
  | leaf : A → Tree A
  | node : Tree A → Tree A → Tree A
  deriving DecidableEq, Repr

namespace Tree

def fold (join : A → A → A) : Tree A → A
  | .leaf value => value
  | .node left right => join (left.fold join) (right.fold join)

/-- The pairs a fold joins, outermost first. -/
def joins (join : A → A → A) : Tree A → List (A × A)
  | .leaf _ => []
  | .node left right =>
    (left.fold join, right.fold join) :: (left.joins join ++ right.joins join)

def leaves : Tree A → List A
  | .leaf value => [value]
  | .node left right => left.leaves ++ right.leaves

/-- Where no two of the joins collide, nor a join with a leaf, folds tell trees apart. -/
theorem eq_of_fold_eq (join : A → A → A) (first second : Tree A)
    (free : ∀ pair ∈ first.joins join, ∀ other ∈ second.joins join,
      join pair.1 pair.2 = join other.1 other.2 → pair = other)
    (firstApart : ∀ leaf ∈ first.leaves, ∀ pair ∈ second.joins join, leaf ≠ join pair.1 pair.2)
    (secondApart : ∀ leaf ∈ second.leaves, ∀ pair ∈ first.joins join, leaf ≠ join pair.1 pair.2)
    (same : first.fold join = second.fold join) : first = second := by
  -- Structural on the first tree: equal folds have equal shapes, and equal parts at a join.
  induction first generalizing second with
  | leaf value =>
    cases second with
    | leaf value' => exact congrArg Tree.leaf same
    | node left' right' =>
      exact absurd same (firstApart value (by simp [leaves]) (left'.fold join, right'.fold join)
        (by simp [joins]))
  | node left right leftIH rightIH =>
    cases second with
    | leaf value' =>
      exact absurd same.symm (secondApart value' (by simp [leaves])
        (left.fold join, right.fold join) (by simp [joins]))
    | node left' right' =>
      have pairs := free (left.fold join, right.fold join) (by simp [joins])
        (left'.fold join, right'.fold join) (by simp [joins]) same
      obtain ⟨leftSame, rightSame⟩ := Prod.mk.inj pairs
      simp only [joins, leaves, List.mem_cons, List.mem_append] at free firstApart secondApart
      rw [leftIH left' (fun _ member _ other => free _ (.inr (.inl member)) _ (.inr (.inl other)))
          (fun _ member _ other => firstApart _ (.inl member) _ (.inr (.inl other)))
          (fun _ member _ other => secondApart _ (.inl member) _ (.inr (.inl other))) leftSame,
        rightIH right' (fun _ member _ other =>
            free _ (.inr (.inr member)) _ (.inr (.inr other)))
          (fun _ member _ other => firstApart _ (.inr member) _ (.inr (.inr other)))
          (fun _ member _ other => secondApart _ (.inr member) _ (.inr (.inr other))) rightSame]

theorem leaves_ne_nil (tree : Tree A) : tree.leaves ≠ [] := by
  induction tree with
  | leaf value => simp [leaves]
  | node left right leftIH _ => simp [leaves, leftIH]

/-- Every leaf lies at the same depth. -/
def Perfect : Nat → Tree A → Prop
  | 0, .leaf _ => True
  | depth + 1, .node left right => left.Perfect depth ∧ right.Perfect depth
  | _, _ => False

theorem Perfect.leaves_length {depth : Nat} {tree : Tree A} (perfect : tree.Perfect depth) :
    tree.leaves.length = 2 ^ depth := by
  induction tree generalizing depth with
  | leaf value =>
    cases depth with
    | zero => rfl
    | succ depth => exact perfect.elim
  | node left right leftIH rightIH =>
    cases depth with
    | zero => exact perfect.elim
    | succ depth =>
      rw [leaves, List.length_append, leftIH perfect.1, rightIH perfect.2]
      ring

/-- A perfect tree is the only one with its leaf sequence. -/
theorem Perfect.eq_of_leaves {depth : Nat} {first second : Tree A} (perfect : first.Perfect depth)
    (other : second.Perfect depth) (same : first.leaves = second.leaves) : first = second := by
  induction first generalizing depth second with
  | leaf value =>
    cases depth with
    | succ depth => exact perfect.elim
    | zero =>
      cases second with
      | leaf value' =>
        simp only [leaves, List.cons.injEq, and_true] at same
        rw [same]
      | node left right => exact other.elim
  | node left right leftIH rightIH =>
    cases depth with
    | zero => exact perfect.elim
    | succ depth =>
      cases second with
      | leaf value => exact other.elim
      | node left' right' =>
        have width : left.leaves.length = left'.leaves.length :=
          perfect.1.leaves_length.trans other.1.leaves_length.symm
        obtain ⟨leftSame, rightSame⟩ := List.append_inj same width
        rw [leftIH perfect.1 other.1 leftSame, rightIH perfect.2 other.2 rightSame]

end Tree

def treeOf (items : List A) : Option (Tree A) :=
  reduce Tree.node (items.map Tree.leaf)

theorem reduce_eq_fold (join : A → A → A) (items : List A) :
    reduce join items = (treeOf items).map (Tree.fold join) := by
  rw [treeOf, ← reduce_map Tree.node join (Tree.fold join) fun _ _ => rfl, List.map_map]
  exact congrArg (reduce join) (List.map_id items).symm

theorem level_perfect {depth : Nat} (trees : List (Tree A))
    (perfect : ∀ tree ∈ trees, tree.Perfect depth) :
    ∀ tree ∈ level Tree.node trees, tree.Perfect (depth + 1) := by
  induction trees using level.induct with
  | case1 => simp [level]
  | case2 last =>
    have bound := perfect last (by simp)
    simpa [level, Tree.Perfect] using bound
  | case3 first second rest ih =>
    intro tree member
    rcases List.mem_cons.mp member with same | member
    · subst same
      exact ⟨perfect first (by simp), perfect second (by simp)⟩
    · exact ih (fun tree member => perfect tree (by simp [member])) tree member

theorem reduce_perfect (depth : Nat) (trees : List (Tree A))
    (perfect : ∀ tree ∈ trees, tree.Perfect depth) {result : Tree A}
    (built : reduce Tree.node trees = some result) : ∃ height, result.Perfect height := by
  induction trees using reduce.induct Tree.node generalizing depth with
  | case1 => simp at built
  | case2 last =>
    rw [reduce_singleton, Option.some.injEq] at built
    exact ⟨depth, built ▸ perfect last (by simp)⟩
  | case3 first second rest ih =>
    rw [reduce] at built
    exact ih (depth + 1) (level_perfect _ perfect) built

theorem treeOf_perfect {items : List A} {tree : Tree A} (built : treeOf items = some tree) :
    ∃ height, tree.Perfect height := by
  refine reduce_perfect 0 (items.map Tree.leaf) ?_ built
  intro tree member
  obtain ⟨value, _, same⟩ := List.mem_map.mp member
  subst same
  trivial

/-- The tree has no leaves but the items. -/
theorem treeOf_leaves {items : List A} {tree : Tree A} (built : treeOf items = some tree) :
    ∀ leaf ∈ tree.leaves, leaf ∈ items := by
  refine reduce_closed (fun tree : Tree A => ∀ leaf ∈ tree.leaves, leaf ∈ items)
    (fun left right leftIn rightIn leaf member => ?_) (items.map Tree.leaf) ?_ built
  · rcases List.mem_append.mp member with member | member
    · exact leftIn leaf member
    · exact rightIn leaf member
  · intro tree member
    obtain ⟨item, listed, rfl⟩ := List.mem_map.mp member
    simpa [Tree.leaves] using listed

/-- The items after every odd level repeated its last block. -/
def padded (items : List A) : List A :=
  (reduce (· ++ ·) (items.map fun item => [item])).getD []

theorem padded_two (first second : A) : padded [first, second] = [first, second] := by
  simp [padded, reduce, level]

/-- Three items are padded to the four that repeat the last. -/
theorem padded_three (first second last : A) :
    padded [first, second, last] = padded [first, second, last, last] := by
  simp [padded, reduce, level]

theorem padded_eq_leaves (items : List A) :
    padded items = ((treeOf items).map Tree.leaves).getD [] := by
  rw [padded, treeOf, ← reduce_map Tree.node (· ++ ·) Tree.leaves fun _ _ => rfl,
    List.map_map]
  rfl

/-- Two lists build one tree exactly if they pad to one sequence. -/
theorem treeOf_eq_iff (first second : List A) :
    treeOf first = treeOf second ↔ padded first = padded second := by
  rw [padded_eq_leaves, padded_eq_leaves]
  constructor
  · intro same
    rw [same]
  intro same
  cases left : treeOf first with
  | none =>
    cases right : treeOf second with
    | none => rfl
    | some tree =>
      simp only [left, right, Option.map_none, Option.map_some, Option.getD_none,
        Option.getD_some] at same
      exact absurd same.symm tree.leaves_ne_nil
  | some tree =>
    cases right : treeOf second with
    | none =>
      simp only [left, right, Option.map_none, Option.map_some, Option.getD_none,
        Option.getD_some] at same
      exact absurd same tree.leaves_ne_nil
    | some tree' =>
      simp only [left, right, Option.map_some, Option.getD_some] at same
      obtain ⟨height, perfect⟩ := treeOf_perfect left
      obtain ⟨height', perfect'⟩ := treeOf_perfect right
      -- as many leaves make the two perfect trees equally high
      have widths : 2 ^ height = 2 ^ height' := by
        rw [← perfect.leaves_length, same, perfect'.leaves_length]
      have heights := Nat.pow_right_injective (le_refl 2) widths
      subst heights
      rw [perfect.eq_of_leaves perfect' same]

/-! ## Lists of one length -/

def pairs : List A → List (A × A)
  | [] => []
  | [last] => [(last, last)]
  | first :: second :: rest => (first, second) :: pairs rest

/-- Equal levels of as many items come from equal items, whether their number is even or odd. -/
theorem eq_of_level_eq (join : A → A → A) (first second : List A)
    (width : first.length = second.length)
    (free : Set.InjOn (fun pair : A × A => join pair.1 pair.2)
      {pair | pair ∈ pairs first ∨ pair ∈ pairs second})
    (same : level join first = level join second) : first = second := by
  induction first using pairs.induct generalizing second with
  | case1 => exact (List.length_eq_zero_iff.mp width.symm).symm
  | case2 last =>
    match second with
    | [] => simp at width
    | [last'] =>
      have head := free (.inl List.mem_cons_self) (.inr List.mem_cons_self) (List.cons.inj same).1
      rw [(Prod.mk.inj head).1]
    | _ :: _ :: rest => simp at width
  | case3 left right rest ih =>
    match second with
    | [] => simp at width
    | [_] => simp at width
    | left' :: right' :: rest' =>
      obtain ⟨joins, later⟩ := List.cons.inj same
      have head := free (.inl List.mem_cons_self) (.inr List.mem_cons_self) joins
      simp only [List.length_cons, Nat.add_right_cancel_iff] at width
      have tail : rest = rest' := by
        apply ih rest' width _ later
        apply free.mono
        rintro pair (member | member)
        · exact .inl (List.mem_cons_of_mem _ member)
        · exact .inr (List.mem_cons_of_mem _ member)
      rw [(Prod.mk.inj head).1, (Prod.mk.inj head).2, tail]

def joined (join : A → A → A) : List A → List (A × A)
  | [] => []
  | [_] => []
  | first :: second :: rest =>
    pairs (first :: second :: rest) ++ joined join (level join (first :: second :: rest))
termination_by items => items.length
decreasing_by
  simp only [length_level, List.length_cons]
  omega

theorem joined_cons (join : A → A → A) (first second : A) (rest : List A) :
    joined join (first :: second :: rest) =
      pairs (first :: second :: rest) ++ joined join (level join (first :: second :: rest)) := by
  rw [joined]

/-- Where no two of the joined pairs collide, a reduction tells lists of one length apart. -/
theorem eq_of_reduce_eq (join : A → A → A) (first second : List A)
    (width : first.length = second.length)
    (free : Set.InjOn (fun pair : A × A => join pair.1 pair.2)
      {pair | pair ∈ joined join first ∨ pair ∈ joined join second})
    (same : reduce join first = reduce join second) : first = second := by
  induction first using reduce.induct join generalizing second with
  | case1 => exact (List.length_eq_zero_iff.mp width.symm).symm
  | case2 last =>
    match second with
    | [] => simp at width
    | [last'] => simpa using same
    | _ :: _ :: rest => simp at width
  | case3 left right rest ih =>
    match second with
    | [] => simp at width
    | [_] => simp at width
    | left' :: right' :: rest' =>
      rw [reduce, reduce] at same
      rw [joined_cons, joined_cons] at free
      have after : level join (left :: right :: rest) = level join (left' :: right' :: rest') := by
        apply ih _ _ _ same
        · rw [length_level, length_level, width]
        · apply free.mono
          rintro pair (member | member)
          · exact .inl (List.mem_append_right _ member)
          · exact .inr (List.mem_append_right _ member)
      apply eq_of_level_eq join _ _ width _ after
      apply free.mono
      rintro pair (member | member)
      · exact .inl (List.mem_append_left _ member)
      · exact .inr (List.mem_append_left _ member)

/-- A list is reduced after as many levels as its length has doublings. -/
theorem iterate_level (join : A → A → A) (items : List A) (filled : items ≠ []) :
    ∃ result, reduce join items = some result ∧
      (level join)^[Nat.clog 2 items.length] items = [result] := by
  induction items using reduce.induct join with
  | case1 => exact absurd rfl filled
  | case2 last => exact ⟨last, reduce_singleton join last, by simp⟩
  | case3 first second rest ih =>
    have levels : Nat.clog 2 (first :: second :: rest).length =
        Nat.clog 2 (level join (first :: second :: rest)).length + 1 := by
      rw [length_level]
      exact Nat.clog_of_one_lt (by decide) (by simp)
    rw [reduce, levels, Function.iterate_succ_apply]
    exact ih (by simp [level])

end Pairing
