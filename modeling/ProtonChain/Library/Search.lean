import Mathlib.Algebra.BigOperators.Group.Finset.Basic
import Mathlib.Algebra.Order.BigOperators.Group.Finset
import Mathlib.Logic.Relation

/-! Searches of a graph from one node, with a stack.

A node that is taken from the stack and was met before is dropped; otherwise it joins the
result and all its successors are pushed. No graph is excluded. Each node pushes its
successors once, so the stack is empty after as many steps as there are edges.
-/

set_option autoImplicit false

namespace Search

open Relation

variable {K : Type} (next : K → List K)

def Edge (node other : K) : Prop := other ∈ next node

/-- A path of zero or more edges leads from the one node to the other. -/
def Reaches : K → K → Prop := ReflTransGen (Edge next)

/-- The stack holds every node that an edge leads to and that the result misses. -/
structure Invariant (start : K) (stack result : List K) : Prop where
  distinct : result.Nodup
  sound : ∀ node ∈ result ++ stack, Reaches next start node
  started : start ∈ result ++ stack
  closed : ∀ node ∈ result, ∀ other ∈ next node, other ∈ result ++ stack

section Steps
variable {next} {start current : K} {stack result : List K}

theorem invariant_start (start : K) : Invariant next start [start] [] where
  distinct := List.nodup_nil
  sound node member := by
    simp only [List.nil_append, List.mem_singleton] at member
    subst member
    exact .refl
  started := List.mem_singleton_self start
  closed node member := by simp at member

theorem invariant_skip (inv : Invariant next start (current :: stack) result)
    (met : current ∈ result) : Invariant next start stack result := by
  have kept : ∀ node, node ∈ result ++ current :: stack → node ∈ result ++ stack := by
    intro node member
    simp only [List.mem_append, List.mem_cons] at member ⊢
    rcases member with early | rfl | later
    · exact .inl early
    · exact .inl met
    · exact .inr later
  constructor
  · exact inv.distinct
  · intro node member
    apply inv.sound
    simp only [List.mem_append, List.mem_cons] at member ⊢
    exact member.imp_right .inr
  · exact kept start inv.started
  · intro node member other edge
    exact kept other (inv.closed node member other edge)

/-- A new node joins the result, and its successors the stack in some order. -/
theorem invariant_visit (inv : Invariant next start (current :: stack) result)
    (fresh : current ∉ result) {pushed : List K}
    (successors : ∀ node, node ∈ pushed ↔ node ∈ next current) :
    Invariant next start (pushed ++ stack) (result ++ [current]) := by
  have here : Reaches next start current := inv.sound current (by simp)
  have kept : ∀ node, node ∈ result ++ current :: stack →
      node ∈ result ++ [current] ++ (pushed ++ stack) := by
    intro node member
    simp only [List.mem_append, List.mem_cons] at member ⊢
    tauto
  constructor
  · rw [List.nodup_append]
    refine ⟨inv.distinct, List.nodup_singleton current, ?_⟩
    intro node early other last same
    rw [List.mem_singleton.mp last] at same
    exact fresh (same ▸ early)
  · intro node member
    by_cases edge : node ∈ pushed
    · exact here.tail ((successors node).mp edge)
    · apply inv.sound
      simp only [List.mem_append, List.mem_cons] at member ⊢
      tauto
  · exact kept start inv.started
  · intro node member other edge
    rcases List.mem_append.mp member with early | last
    · exact kept other (inv.closed node early other edge)
    · rw [List.mem_singleton.mp last] at edge
      simp [(successors other).mpr edge]

/-- An emptied stack leaves exactly the nodes that can be reached. -/
theorem mem_iff_reaches {final : List K} (done : Invariant next start [] final) (node : K) :
    node ∈ final ↔ Reaches next start node := by
  have started := done.started
  have closed := done.closed
  simp only [List.append_nil] at started closed
  constructor
  · intro member
    exact done.sound node (by simp [member])
  · intro path
    induction path with
    | refl => exact started
    | tail _ edge ih => exact closed _ ih _ edge

end Steps

/-! ## Enough steps -/

section Search
variable [DecidableEq K]

/-- Take nodes from the stack until it is empty; `none` if the fuel is not enough. -/
def search : Nat → List K → List K → Option (List K)
  | _, [], result => some result
  | 0, _ :: _, _ => none
  | fuel + 1, current :: stack, result =>
    if current ∈ result then search fuel stack result
    else search fuel ((next current).reverse ++ stack) (result ++ [current])

variable {next}

theorem search_nil (fuel : Nat) (result : List K) :
    search next fuel [] result = some result := by
  cases fuel <;> rfl

/-- The edges that are still to be pushed. -/
def remaining (next : K → List K) (nodes : Finset K) (result : List K) : Nat :=
  ∑ node ∈ nodes with node ∉ result, (next node).length

/-- A node that joins the result takes its own edges off the sum. -/
theorem remaining_visit {nodes : Finset K} (support : ∀ node, node ∉ nodes → next node = [])
    {current : K} {result : List K} (fresh : current ∉ result) :
    (next current).length + remaining next nodes (result ++ [current]) =
      remaining next nodes result := by
  unfold remaining
  by_cases inside : current ∈ nodes
  · have left : {node ∈ nodes | node ∉ result ++ [current]} =
        {node ∈ nodes | node ∉ result}.erase current := by
      ext node
      simp only [Finset.mem_filter, Finset.mem_erase, List.mem_append, List.mem_singleton]
      tauto
    have member : current ∈ {node ∈ nodes | node ∉ result} := by simp [inside, fresh]
    rw [left]
    exact Finset.add_sum_erase _ (fun node => (next node).length) member
  · have left : {node ∈ nodes | node ∉ result ++ [current]} = {node ∈ nodes | node ∉ result} := by
      apply Finset.filter_congr
      intro node present
      have apart : node ≠ current := fun same => inside (same ▸ present)
      simp [apart]
    rw [left, support current inside]
    simp

/-- The run law: enough fuel empties the stack, whatever the graph. Every step takes one
node from the stack, and what it pushes no later step pushes again. -/
theorem search_total {nodes : Finset K} (support : ∀ node, node ∉ nodes → next node = [])
    {start : K} (count : Nat) {stack result : List K}
    (inv : Invariant next start stack result)
    (enough : stack.length + remaining next nodes result ≤ count) :
    ∃ final, Invariant next start [] final ∧
      ∀ fuel, count ≤ fuel → search next fuel stack result = some final := by
  induction count generalizing stack result with
  | zero =>
    cases stack with
    | nil => exact ⟨result, inv, fun fuel _ => search_nil fuel result⟩
    | cons current stack => simp at enough
  | succ count ih =>
    cases stack with
    | nil => exact ⟨result, inv, fun fuel _ => search_nil fuel result⟩
    | cons current stack =>
      rw [List.length_cons] at enough
      by_cases met : current ∈ result
      · obtain ⟨final, done, runs⟩ := ih (invariant_skip inv met) (by omega)
        refine ⟨final, done, fun fuel least => ?_⟩
        cases fuel with
        | zero => omega
        | succ fuel =>
          rw [search, if_pos met]
          exact runs fuel (by omega)
      · have fewer := remaining_visit support met
        have pushed : ∀ node, node ∈ (next current).reverse ↔ node ∈ next current :=
          fun node => List.mem_reverse
        have visited := invariant_visit inv met pushed
        obtain ⟨final, done, runs⟩ := ih visited (by
          simp only [List.length_append, List.length_reverse]
          omega)
        refine ⟨final, done, fun fuel least => ?_⟩
        cases fuel with
        | zero => omega
        | succ fuel =>
          rw [search, if_neg met]
          exact runs fuel (by omega)

end Search

end Search
