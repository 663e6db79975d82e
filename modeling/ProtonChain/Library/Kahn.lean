import Mathlib.Data.List.Basic
import Mathlib.Data.List.Chain
import Mathlib.Data.List.Nodup
import Mathlib.Data.List.Perm.Subperm
import Mathlib.Data.Fintype.Card
import Mathlib.Data.Fintype.EquivFin
import Mathlib.Order.WellFounded
import Mathlib.Logic.Relation

/-! Traversals that settle a node after its parents.

Roots are queued first, and every node once its last parent has been taken from the
queue. The nodes reached are the grounded ones: those that a finite tree of parents
stands under. No graph is excluded; parents may be repeated, missing or cyclic.
-/

set_option autoImplicit false

namespace Kahn

open Relation

variable {K : Type}

section Graph
variable (order : List K) (parents : K → List K)

inductive Grounded : K → Prop where
  | intro (node : K) (present : node ∈ order)
      (below : ∀ parent ∈ parents node, Grounded parent) : Grounded node

/-- The edges of the graph, from a parent to its child. -/
def Parent (parent node : K) : Prop := parent ∈ parents node

def Ancestor : K → K → Prop := TransGen (Parent parents)

/-- Of two nodes that are comparable one is above the other, or they are the same. -/
def Comparable (left right : K) : Prop :=
  left = right ∨ Ancestor parents left right ∨ Ancestor parents right left

instance : Std.Symm (Comparable parents) :=
  ⟨fun _ _ related => related.elim (fun same => .inl same.symm) fun path => .inr path.symm⟩

/-- The node and all its ancestors are present, and none of them is its own ancestor. -/
structure Rooted (node : K) : Prop where
  present : node ∈ order
  ancestors : ∀ ancestor, Ancestor parents ancestor node → ancestor ∈ order
  acyclic : ¬ Ancestor parents node node
  aboveCycles : ∀ ancestor, Ancestor parents ancestor node →
    ¬ Ancestor parents ancestor ancestor

variable {order parents}

theorem Grounded.present {node : K} (grounded : Grounded order parents node) : node ∈ order := by
  cases grounded with
  | intro _ present _ => exact present

theorem Grounded.ancestor {node : K} (grounded : Grounded order parents node) {ancestor : K}
    (path : Ancestor parents ancestor node) : Grounded order parents ancestor := by
  induction path with
  | single edge =>
    cases grounded with
    | intro _ _ below => exact below _ edge
  | tail _ edge ih =>
    cases grounded with
    | intro _ _ below => exact ih (below _ edge)

/-- A cycle has no grounded node: each would rest on the one before it. -/
theorem Grounded.acyclic {node : K} (grounded : Grounded order parents node) :
    ¬ Ancestor parents node node := by
  induction grounded with
  | intro node _ _ ih =>
    intro cycle
    -- the last edge leads from a parent that lies on the cycle too
    obtain ⟨parent, path, edge⟩ := TransGen.tail'_iff.mp cycle
    have round : Ancestor parents parent parent := TransGen.head' edge path
    exact ih parent edge round

theorem Grounded.rooted {node : K} (grounded : Grounded order parents node) :
    Rooted order parents node where
  present := grounded.present
  ancestors _ path := (grounded.ancestor path).present
  acyclic := grounded.acyclic
  aboveCycles _ path := (grounded.ancestor path).acyclic

theorem Rooted.ancestor {node : K} (rooted : Rooted order parents node) {ancestor : K}
    (path : Ancestor parents ancestor node) : Rooted order parents ancestor where
  present := rooted.ancestors ancestor path
  ancestors _ further := rooted.ancestors _ (further.trans path)
  acyclic := rooted.aboveCycles ancestor path
  aboveCycles _ further := rooted.aboveCycles _ (further.trans path)

/-- Finitely many nodes without a cycle end somewhere. -/
theorem Rooted.grounded {node : K} (rooted : Rooted order parents node) :
    Grounded order parents node := by
  let Under := { node : K // node ∈ order ∧ Rooted order parents node }
  let before : Under → Under → Prop := fun first second => Ancestor parents first.1 second.1
  have listed : Finite { node // node ∈ order } := by
    classical exact Finite.of_fintype { node // node ∈ order }
  have finite : Finite Under :=
    Finite.of_injective (fun under : Under => (⟨under.1, under.2.1⟩ : { node // node ∈ order }))
      fun first second same => Subtype.ext (congrArg (fun kept => kept.1) same)
  have trans : IsTrans Under before := ⟨fun _ _ _ => TransGen.trans⟩
  have irrefl : Std.Irrefl before := ⟨fun under => under.2.2.acyclic⟩
  have ends : WellFounded before := Finite.wellFounded_of_trans_of_irrefl before
  have all : ∀ under : Under, Grounded order parents under.1 := by
    intro under
    induction under using ends.induction with
    | _ under ih =>
      refine .intro under.1 under.2.1 fun parent edge => ?_
      have below := under.2.2.ancestor (.single edge)
      exact ih ⟨parent, below.present, below⟩ (.single edge)
  exact all ⟨node, rooted.present, rooted⟩

theorem grounded_iff_rooted (node : K) :
    Grounded order parents node ↔ Rooted order parents node :=
  ⟨Grounded.rooted, Rooted.grounded⟩

end Graph

/-! ## Lists that respect the graph -/

section Lists
variable (order : List K) (parents : K → List K)

/-- Every node is listed after all its parents. -/
def ParentsFirst (result : List K) : Prop :=
  ∀ before node after, result = before ++ node :: after →
    ∀ parent ∈ parents node, parent ∈ before

/-- Result and queue together hold each node once that has all its parents in the result. -/
structure Invariant (queue result : List K) : Prop where
  distinct : (result ++ queue).Nodup
  settled : ∀ node, node ∈ result ++ queue ↔
    node ∈ order ∧ ∀ parent ∈ parents node, parent ∈ result
  parentsFirst : ParentsFirst parents result
  grounded : ∀ node ∈ result ++ queue, Grounded order parents node

variable {order parents} {current : K} {queue result : List K}

theorem invariant_start {roots : List K} (distinct : roots.Nodup)
    (listed : ∀ node, node ∈ roots ↔ node ∈ order ∧ parents node = []) :
    Invariant order parents roots [] where
  distinct := distinct
  settled node := by
    rw [List.nil_append, listed, List.eq_nil_iff_forall_not_mem]
    simp
  parentsFirst before node after split := by
    cases before <;> cases split
  grounded node member := by
    obtain ⟨present, root⟩ := (listed node).mp member
    refine .intro node present fun parent below => ?_
    rw [root] at below
    cases below

theorem parentsFirst_concat (first : ParentsFirst parents result)
    (below : ∀ parent ∈ parents current, parent ∈ result) :
    ParentsFirst parents (result ++ [current]) := by
  intro before node after split
  rcases List.eq_nil_or_concat after with rfl | ⟨after, last, rfl⟩
  · obtain ⟨rfl, same⟩ := List.append_inj' split rfl
    obtain rfl : current = node := (List.cons.inj same).1
    exact below
  · rw [List.concat_eq_append, ← List.cons_append, ← List.append_assoc] at split
    exact first before node after (List.append_inj' split rfl).1

theorem length_lt_of_invariant (inv : Invariant order parents (current :: queue) result) :
    result.length < order.length := by
  have within : result ++ current :: queue ⊆ order := fun node member =>
    ((inv.settled node).mp member).1
  have few := (List.subperm_of_subset inv.distinct within).length_le
  rw [List.length_append, List.length_cons] at few
  omega

theorem Invariant.nodup (inv : Invariant order parents queue result) : result.Nodup :=
  (List.nodup_append.mp inv.distinct).1

/-- An emptied queue leaves exactly the grounded nodes. -/
theorem mem_iff_grounded {final : List K} (done : Invariant order parents [] final) (node : K) :
    node ∈ final ↔ Grounded order parents node := by
  have settled := done.settled
  rw [List.append_nil] at settled
  constructor
  · intro member
    exact done.grounded node (List.mem_append_left _ member)
  · intro grounded
    induction grounded with
    | intro node present _ ih => exact (settled node).mpr ⟨present, ih⟩

/-- Not only the parents come first. -/
theorem ParentsFirst.ancestors (first : ParentsFirst parents result) {ancestor node : K}
    (path : Ancestor parents ancestor node) {before after : List K}
    (split : result = before ++ node :: after) : ancestor ∈ before := by
  induction path generalizing before after with
  | single edge => exact first before _ after split _ edge
  | tail _ edge ih =>
    obtain ⟨earlier, later, rfl⟩ := List.append_of_mem (first before _ after split _ edge)
    have early := ih (by rw [split, List.append_assoc, List.cons_append])
    exact List.mem_append_left _ early

theorem ParentsFirst.init (first : ParentsFirst parents (result ++ [current])) :
    ParentsFirst parents result := by
  intro before node after split
  exact first before node (after ++ [current]) (by rw [split, List.append_assoc, List.cons_append])

/-- Nodes of which one is always above the other have but one order. -/
theorem ParentsFirst.pairwise (first : ParentsFirst parents result) (distinct : result.Nodup)
    (comparable : ∀ left ∈ result, ∀ right ∈ result, Comparable parents left right) :
    result.Pairwise (Ancestor parents) := by
  induction result using List.reverseRecOn with
  | nil => exact List.Pairwise.nil
  | append_singleton result last ih =>
    obtain ⟨nodup, -, apart⟩ := List.nodup_append.mp distinct
    have inner := ih first.init nodup fun left inLeft right inRight =>
      comparable left (List.mem_append_left _ inLeft) right (List.mem_append_left _ inRight)
    refine List.pairwise_append.mpr ⟨inner, List.pairwise_singleton _ _, ?_⟩
    rintro node member final here
    obtain rfl := List.mem_singleton.mp here
    rcases comparable node (List.mem_append_left _ member) final
      (List.mem_append_right _ here) with same | above | below
    · exact absurd same (apart node member final here)
    · exact above
    · -- the last node would have to come before one that it follows
      obtain ⟨before, after, rfl⟩ := List.append_of_mem member
      have early := first.ancestors below (by rw [List.append_assoc, List.cons_append])
      exact absurd rfl (apart final (List.mem_append_left _ early) final here)

/-- Of the same comparable nodes there is one list that respects the graph. -/
theorem eq_of_comparable {other : List K} (distinct : result.Nodup) (distinct' : other.Nodup)
    (first : ParentsFirst parents result) (first' : ParentsFirst parents other)
    (same : ∀ node, node ∈ result ↔ node ∈ other)
    (acyclic : ∀ node ∈ result, ¬ Ancestor parents node node)
    (comparable : ∀ left ∈ result, ∀ right ∈ result, Comparable parents left right) :
    result = other := by
  have perm : result.Perm other := (List.perm_ext_iff_of_nodup distinct distinct').mpr same
  have sorted := first.pairwise distinct comparable
  have sorted' := first'.pairwise distinct' fun left inLeft right inRight =>
    comparable left ((same left).mpr inLeft) right ((same right).mpr inRight)
  refine perm.eq_of_pairwise (fun left right inLeft _ above below => ?_) sorted sorted'
  exact absurd (above.trans below) (acyclic left inLeft)

/-- Where a list without repetition and its reverse start alike there is one element. -/
theorem eq_nil_of_mirror {first : K} {rest : List K} (distinct : (first :: rest).Nodup)
    (alike : (first :: rest).head? = (first :: rest).reverse.head?) : rest = [] := by
  rcases List.eq_nil_or_concat rest with empty | ⟨init, last, rfl⟩
  · exact empty
  · rw [List.concat_eq_append, ← List.cons_append, List.reverse_append] at alike
    have same : first = last := Option.some.inj alike
    rw [List.nodup_cons, List.concat_eq_append, same] at distinct
    exact absurd (List.mem_append_right _ (List.mem_singleton_self _)) distinct.1

end Lists

/-! ## The traversal -/

section Traversal
variable [DecidableEq K] (order : List K) (parents : K → List K)

/-- The nodes that the current one was the last parent of. -/
def ready (current : K) (result : List K) : List K :=
  order.filter fun node => current ∈ parents node ∧ ∀ parent ∈ parents node, parent ∈ result

/-- Take nodes from the queue until it is empty; `none` if the fuel is not enough. -/
def drain : Nat → List K → List K → Option (List K)
  | _, [], result => some result
  | 0, _ :: _, _ => none
  | fuel + 1, current :: queue, result =>
    drain fuel (queue ++ ready order parents current (result ++ [current])) (result ++ [current])

variable {order parents} {current : K} {queue result : List K}

theorem drain_nil (fuel : Nat) : drain order parents fuel [] result = some result := by
  cases fuel <;> rfl

theorem mem_ready {node : K} :
    node ∈ ready order parents current result ↔
      node ∈ order ∧ current ∈ parents node ∧ ∀ parent ∈ parents node, parent ∈ result := by
  rw [ready, List.mem_filter, decide_eq_true_iff]

/-- A node that has its last parent taken was in neither list before. -/
theorem ready_fresh (inv : Invariant order parents (current :: queue) result) {node : K}
    (here : node ∈ ready order parents current (result ++ [current])) :
    node ∉ result ++ current :: queue := by
  obtain ⟨present, child, -⟩ := mem_ready.mp here
  intro old
  have early := ((inv.settled node).mp old).2 current child
  have apart := (List.nodup_append.mp inv.distinct).2.2 current early current List.mem_cons_self
  exact apart rfl

theorem invariant_step (nodup : order.Nodup)
    (inv : Invariant order parents (current :: queue) result) :
    Invariant order parents (queue ++ ready order parents current (result ++ [current]))
      (result ++ [current]) := by
  have known : ∀ node,
      node ∈ result ++ current :: queue ↔ node ∈ (result ++ [current]) ++ queue := by
    intro node
    rw [List.append_assoc, List.singleton_append]
  have below : ∀ parent ∈ parents current, parent ∈ result :=
    ((inv.settled current).mp (List.mem_append_right _ List.mem_cons_self)).2
  have settled : ∀ node,
      node ∈ (result ++ [current]) ++ (queue ++ ready order parents current (result ++ [current])) ↔
        node ∈ order ∧ ∀ parent ∈ parents node, parent ∈ result ++ [current] := by
    intro node
    rw [← List.append_assoc, List.mem_append, ← known, inv.settled, mem_ready]
    constructor
    · rintro (⟨present, early⟩ | ⟨present, -, all⟩)
      · exact ⟨present, fun parent member => List.mem_append_left _ (early parent member)⟩
      · exact ⟨present, all⟩
    · rintro ⟨present, all⟩
      by_cases child : current ∈ parents node
      · exact .inr ⟨present, child, all⟩
      · -- without the current node all parents were there before
        refine .inl ⟨present, fun parent member => ?_⟩
        rcases List.mem_append.mp (all parent member) with early | own
        · exact early
        · rw [List.mem_singleton.mp own] at member
          exact absurd member child
  refine ⟨?_, settled, parentsFirst_concat inv.parentsFirst below, ?_⟩
  · rw [← List.append_assoc, List.nodup_append]
    have old : ((result ++ [current]) ++ queue).Nodup := by
      rw [List.append_assoc]
      exact inv.distinct
    refine ⟨old, nodup.filter _, ?_⟩
    rintro node before other here rfl
    exact ready_fresh inv here ((known node).mpr before)
  · intro node member
    obtain ⟨present, all⟩ := (settled node).mp member
    refine .intro node present fun parent child => inv.grounded parent ?_
    rw [known]
    exact List.mem_append_left _ (all parent child)

/-- The run law: enough fuel empties the queue, whatever the graph. -/
theorem drain_total (nodup : order.Nodup) (count : Nat) {queue result : List K}
    (inv : Invariant order parents queue result) (enough : order.length ≤ result.length + count) :
    ∃ final, Invariant order parents [] final ∧
      ∀ fuel, count ≤ fuel → drain order parents fuel queue result = some final := by
  induction count generalizing queue result with
  | zero =>
    cases queue with
    | nil => exact ⟨result, inv, fun fuel _ => drain_nil fuel⟩
    | cons current queue =>
      have more := length_lt_of_invariant inv
      omega
  | succ count ih =>
    cases queue with
    | nil => exact ⟨result, inv, fun fuel _ => drain_nil fuel⟩
    | cons current queue =>
      have next := invariant_step nodup inv
      have more : order.length ≤ (result ++ [current]).length + count := by
        rw [List.length_append, List.length_singleton]
        omega
      obtain ⟨final, done, runs⟩ := ih next more
      refine ⟨final, done, fun fuel least => ?_⟩
      obtain ⟨fuel, rfl⟩ := Nat.exists_eq_add_of_le' (Nat.one_le_of_lt least)
      exact runs fuel (by omega)

/-! ## A traversal and its mirror image -/

theorem drain_extends (fuel : Nat) {queue result final : List K}
    (runs : drain order parents fuel queue result = some final) :
    ∃ later, final = result ++ later ∧ later.head? = queue.head? := by
  induction fuel generalizing queue result with
  | zero =>
    cases queue with
    | nil => exact ⟨[], (Option.some.inj runs).symm.trans (List.append_nil _).symm, rfl⟩
    | cons current queue => cases runs
  | succ fuel ih =>
    cases queue with
    | nil => exact ⟨[], (Option.some.inj runs).symm.trans (List.append_nil _).symm, rfl⟩
    | cons current queue =>
      obtain ⟨later, rfl, -⟩ := ih runs
      exact ⟨current :: later, by rw [List.append_assoc, List.singleton_append], rfl⟩

theorem ready_reverse (current : K) (result : List K) :
    ready order.reverse parents current result = (ready order parents current result).reverse :=
  List.filter_reverse

/-- A traversal that agrees with its mirror image never has a choice: each node it
takes is a parent of the next one. -/
theorem chain_of_mirror (nodup : order.Nodup) (fuel : Nat) {queue result final : List K}
    (inv : Invariant order parents queue result)
    (runs : drain order parents fuel queue result = some final)
    (mirror : drain order.reverse parents fuel queue.reverse result = some final) :
    ∃ later, final = result ++ later ∧ later.head? = queue.head? ∧
      later.IsChain (Parent parents) := by
  induction fuel generalizing queue result with
  | zero =>
    cases queue with
    | nil => exact ⟨[], (Option.some.inj runs).symm.trans (List.append_nil _).symm, rfl, .nil⟩
    | cons current queue => cases runs
  | succ fuel ih =>
    cases queue with
    | nil => exact ⟨[], (Option.some.inj runs).symm.trans (List.append_nil _).symm, rfl, .nil⟩
    | cons current queue =>
      -- both take the same node, so the queue and its mirror image start alike
      obtain ⟨later, split, first⟩ := drain_extends _ runs
      obtain ⟨other, split', last⟩ := drain_extends _ mirror
      obtain rfl := List.append_cancel_left (split.symm.trans split')
      obtain rfl := eq_nil_of_mirror (List.nodup_append.mp inv.distinct).2.1
        (first.symm.trans last)
      have next := invariant_step nodup inv
      rw [List.nil_append] at next
      change drain order.reverse parents fuel
        ([] ++ ready order.reverse parents current (result ++ [current])) (result ++ [current]) =
          some final at mirror
      rw [List.nil_append, ready_reverse] at mirror
      obtain ⟨rest, whole, head, chain⟩ := ih next runs mirror
      refine ⟨current :: rest, by rw [whole, List.append_assoc, List.singleton_append], rfl, ?_⟩
      apply List.isChain_cons.mpr
      refine ⟨fun node start => ?_, chain⟩
      rw [head] at start
      exact (mem_ready.mp (List.mem_of_mem_head? start)).2.1

theorem comparable_of_mirror (nodup : order.Nodup) (fuel : Nat) {roots final : List K}
    (inv : Invariant order parents roots [])
    (runs : drain order parents fuel roots [] = some final)
    (mirror : drain order.reverse parents fuel roots.reverse [] = some final) {left right : K}
    (inLeft : left ∈ final) (inRight : right ∈ final) : Comparable parents left right := by
  obtain ⟨later, whole, -, chain⟩ := chain_of_mirror nodup fuel inv runs mirror
  rw [List.nil_append] at whole
  subst whole
  have trans : IsTrans K (Ancestor parents) := ⟨fun _ _ _ => TransGen.trans⟩
  have sorted : final.Pairwise (Ancestor parents) :=
    List.isChain_iff_pairwise.mp (chain.imp fun _ _ edge => .single edge)
  have related : final.Pairwise (Comparable parents) := sorted.imp fun path => .inr (.inl path)
  exact related.forall_of_forall (fun _ _ => .inl rfl) inLeft inRight

end Traversal

end Kahn
