import ProtonChain.Consensus.Topological
import ProtonChain.Library.Search

/-! What the search for ancestors returns, and where the sort has them.

The search reads the map of edges alone, whatever it holds, and meets each hash once. The
sort reads the vertices; the two maps agree after every run of additions, so all that the
search finds above a sorted vertex is sorted too, and not after it.
-/

set_option autoImplicit false

namespace ProtonChain.Consensus

/-! ## The loop is the search -/

/-- The hashes that the loop has marked are those of the result. -/
def Marks (visited : HashMap Hash Bool) (result : List Hash) : Prop :=
  ∀ hash, hash ∈ visited ↔ hash ∈ result

theorem marks_insert {visited : HashMap Hash Bool} {result : List Hash}
    (marks : Marks visited result) (current : Hash) :
    Marks (visited.insert current true) (result ++ [current]) := by
  intro hash
  rw [Finmap.mem_insert, marks hash, List.mem_append, List.mem_singleton]
  exact or_comm

theorem foldl_push (parents stack : List Hash) :
    parents.foldl (fun stack parent => parent :: stack) stack = parents.reverse ++ stack := by
  induction parents generalizing stack with
  | nil => rfl
  | cons first rest ih => simp [ih]

namespace DagOrdering

variable {dag : DagOrdering}

/-- The parents that the edges name; none where a hash has no entry. -/
def edgesFrom (dag : DagOrdering) (hash : Hash) : List Hash := (dag.edges.lookup hash).getD []

theorem searchAncestors_eq (fuel : Nat) {visited : HashMap Hash Bool} {stack result : List Hash}
    (marks : Marks visited result) :
    searchAncestors dag.edges fuel visited stack result =
      Search.search dag.edgesFrom fuel stack result := by
  induction fuel generalizing visited stack result with
  | zero => cases stack <;> rfl
  | succ fuel ih =>
    cases stack with
    | nil => rfl
    | cons current stack =>
      unfold searchAncestors Search.search
      by_cases met : current ∈ result
      · rw [if_pos ((marks current).mpr met), if_pos met]
        exact ih marks
      · rw [if_neg (mt (marks current).mp met), if_neg met, ih (marks_insert marks current),
          foldl_push]
        rfl

/-- One step for the hash itself and one for each edge. -/
def searchFuel (dag : DagOrdering) : Nat := 1 + ∑ hash ∈ dag.edges.keys, (dag.edgesFrom hash).length

theorem edgesFrom_of_notMem (hash : Hash) (missing : hash ∉ dag.edges.keys) :
    dag.edgesFrom hash = [] := by
  rw [Finmap.mem_keys, ← Finmap.lookup_eq_none] at missing
  rw [edgesFrom, missing, Option.getD_none]

theorem getAncestors_total (dag : DagOrdering) (hash : Hash) :
    ∃ result, Search.Invariant dag.edgesFrom hash [] result ∧
      ∀ fuel, dag.searchFuel ≤ fuel → dag.getAncestors fuel hash = some result := by
  have enough : [hash].length + Search.remaining dag.edgesFrom dag.edges.keys [] ≤
      dag.searchFuel := by
    simp [Search.remaining, searchFuel]
  obtain ⟨result, done, runs⟩ := Search.search_total edgesFrom_of_notMem dag.searchFuel
    (Search.invariant_start hash) enough
  have unmarked : Marks ∅ [] := by simp [Marks, Finmap.notMem_empty]
  refine ⟨result, done, fun fuel least => ?_⟩
  rw [getAncestors, searchAncestors_eq fuel unmarked]
  exact runs fuel least

/-- The search ends on every graph and finds each hash that the edges lead to, once. -/
theorem getAncestors_correct (dag : DagOrdering) (hash : Hash) :
    ∃ result, (∀ fuel, dag.searchFuel ≤ fuel → dag.getAncestors fuel hash = some result) ∧
      result.Nodup ∧
      ∀ ancestor, ancestor ∈ result ↔
        Relation.ReflTransGen (fun node parent => parent ∈ dag.edgesFrom node) hash ancestor := by
  obtain ⟨result, done, runs⟩ := getAncestors_total dag hash
  exact ⟨result, runs, done.distinct, Search.mem_iff_reaches done⟩

/-! ## The two maps -/

/-- The edges of every hash are the parents of its vertex. -/
def Coherent (dag : DagOrdering) : Prop :=
  ∀ hash, dag.edges.lookup hash = (dag.vertices.lookup hash).map DagVertex.parents

theorem addVertex_coherent (coherent : dag.Coherent) (vertex : DagVertex) :
    (dag.addVertex vertex).Coherent := by
  intro hash
  simp only [addVertex, FiniteMap.lookup_insert]
  split
  · rfl
  · exact coherent hash

theorem addVertices_coherent (coherent : dag.Coherent) (added : List DagVertex) :
    (dag.addVertices added).Coherent := by
  induction added generalizing dag with
  | nil => exact coherent
  | cons vertex rest ih => exact ih (addVertex_coherent coherent vertex)

theorem new_coherent : new.Coherent := by
  intro hash
  rfl

theorem edgesFrom_eq_parents (coherent : dag.Coherent) : dag.edgesFrom = dag.parents := by
  funext hash
  rw [edgesFrom, coherent hash, parents]
  cases dag.vertices.lookup hash with
  | none => rfl
  | some vertex => rfl

/-! ## The search and the sort -/

theorem reaches_iff (coherent : dag.Coherent) (hash ancestor : Hash) :
    Search.Reaches dag.edgesFrom hash ancestor ↔
      ancestor = hash ∨ Kahn.Ancestor dag.parents ancestor hash := by
  have turned : Function.swap (Search.Edge dag.edgesFrom) = Kahn.Parent dag.parents := by
    rw [edgesFrom_eq_parents coherent]
    rfl
  rw [Search.Reaches, ← Relation.reflTransGen_swap, turned,
    Relation.reflTransGen_iff_eq_or_transGen, @eq_comm _ hash]
  rfl

/-- Everything above a sorted hash is sorted before it. -/
theorem traversals_agree (added : List DagVertex)
    (iteration : Iteration (new.addVertices added)) :
    ∃ sorted, (∀ fuel, (new.addVertices added).vertices.keys.card ≤ fuel →
        (new.addVertices added).topologicalSort iteration fuel = some sorted) ∧
      ∀ hash ∈ sorted, ∃ ancestors,
        (∀ fuel, (new.addVertices added).searchFuel ≤ fuel →
          (new.addVertices added).getAncestors fuel hash = some ancestors) ∧
        ∀ ancestor ∈ ancestors,
          ancestor ∈ sorted ∧ sorted.idxOf ancestor ≤ sorted.idxOf hash := by
  obtain ⟨sorted, settled, sorts⟩ := topologicalSort_total iteration
  refine ⟨sorted, sorts, fun hash member => ?_⟩
  obtain ⟨ancestors, done, searches⟩ := getAncestors_total (new.addVertices added) hash
  refine ⟨ancestors, searches, fun ancestor found => ?_⟩
  have path := (Search.mem_iff_reaches done ancestor).mp found
  rw [reaches_iff (addVertices_coherent new_coherent added)] at path
  cases path with
  | inl same =>
    subst same
    exact ⟨member, Nat.le_refl _⟩
  | inr path =>
    -- the sort has the ancestor in front of the hash
    obtain ⟨before, after, split⟩ := List.append_of_mem member
    have early := settled.parentsFirst.ancestors path split
    have fresh : hash ∉ before := by
      have distinct := settled.nodup
      rw [split] at distinct
      exact fun again => (List.nodup_append.mp distinct).2.2 hash again hash List.mem_cons_self rfl
    rw [split, List.idxOf_append_of_mem early, List.idxOf_append_of_notMem fresh]
    have position := List.idxOf_lt_length_of_mem early
    exact ⟨List.mem_append_left _ early, by omega⟩

end DagOrdering

end ProtonChain.Consensus
