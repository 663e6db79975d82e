import ProtonChain.Consensus.Topological

/-! Two nodes that hold the same vertices, and the orders they compute.

Each may have added the vertices in its own order and iterates over its maps in its own.
Both list the same vertices, each after its parents; the lists are the same for every
choice exactly if the graph leaves none.
-/

set_option autoImplicit false

namespace ProtonChain.Consensus.DagOrdering

section Agreement
variable {dag other : DagOrdering}

theorem parents_congr (same : other.vertices = dag.vertices) : other.parents = dag.parents := by
  funext hash
  rw [parents, same, parents]

theorem Placed.transfer (same : other.vertices = dag.vertices) {hash : Hash}
    (placed : other.Placed hash) : dag.Placed hash := by
  obtain ⟨present, ancestors, acyclic, aboveCycles⟩ := placed
  rw [same] at present ancestors
  rw [parents_congr same] at ancestors acyclic aboveCycles
  exact ⟨present, ancestors, acyclic, aboveCycles⟩

theorem placed_congr (same : other.vertices = dag.vertices) (hash : Hash) :
    other.Placed hash ↔ dag.Placed hash :=
  ⟨Placed.transfer same, Placed.transfer same.symm⟩

/-- Of any two vertices that the sort returns one is an ancestor of the other. -/
def Chained (dag : DagOrdering) : Prop :=
  ∀ left right, dag.Placed left → dag.Placed right → Kahn.Comparable dag.parents left right

theorem eq_of_chained (chained : dag.Chained) (same : other.vertices = dag.vertices)
    {mine : Iteration dag} {theirs : Iteration other} {result result' : List Hash}
    (done : Kahn.Invariant mine.nodes dag.parents [] result)
    (done' : Kahn.Invariant theirs.nodes other.parents [] result') : result = result' := by
  have placed := mem_iff_placed done
  have members : ∀ hash, hash ∈ result ↔ hash ∈ result' := by
    intro hash
    rw [placed, mem_iff_placed done', placed_congr same]
  have first := done'.parentsFirst
  rw [parents_congr same] at first
  apply Kahn.eq_of_comparable done.nodup done'.nodup done.parentsFirst first members
  · intro hash member
    exact ((placed hash).mp member).acyclic
  · intro left inLeft right inRight
    exact chained left right ((placed left).mp inLeft) ((placed right).mp inRight)

/-! ## A node and its mirror image -/

theorem listing_degrees {vertexOrder : List (Hash × DagVertex)}
    (vertices : FiniteMap.Listing dag.vertices vertexOrder) :
    FiniteMap.Listing (Degrees.count vertexOrder).inDegree
      (vertexOrder.map fun entry => (entry.1, entry.2.parents.length)) where
  distinct := by
    rw [List.map_map]
    exact vertices.distinct
  listed key degree := by
    obtain ⟨counts, others⟩ := Degrees.inDegree_count vertices.distinct
    rw [List.mem_map]
    constructor
    · intro ⟨entry, member, same⟩
      obtain ⟨rfl, rfl⟩ := Prod.mk.inj same
      exact counts entry member
    · intro found
      by_cases present : key ∈ vertexOrder.map Prod.fst
      · obtain ⟨entry, member, rfl⟩ := List.mem_map.mp present
        rw [counts entry member] at found
        exact ⟨entry, member, by rw [Option.some.inj found]⟩
      · rw [others key present] at found
        cases found

def Iteration.along {vertexOrder : List (Hash × DagVertex)}
    (vertices : FiniteMap.Listing dag.vertices vertexOrder) : Iteration dag where
  vertexOrder := vertexOrder
  vertices := vertices
  degreeOrder := vertexOrder.map fun entry => (entry.1, entry.2.parents.length)
  degrees := listing_degrees vertices

theorem chained_of_mirror {vertexOrder : List (Hash × DagVertex)}
    (vertices : FiniteMap.Listing dag.vertices vertexOrder)
    (agree : dag.topologicalSort (.along vertices) dag.vertices.keys.card =
      dag.topologicalSort (.along vertices.reverse) dag.vertices.keys.card) : dag.Chained := by
  let iteration := Iteration.along vertices
  obtain ⟨result, done, runs⟩ := topologicalSort_total iteration
  have forward := runs _ (Nat.le_refl _)
  have backward := agree.symm.trans forward
  rw [topologicalSort_eq] at forward backward
  have nodes : (Iteration.along vertices.reverse).nodes = iteration.nodes.reverse :=
    List.map_reverse
  have queue : initialQueue (Iteration.along vertices.reverse).degreeOrder =
      (initialQueue iteration.degreeOrder).reverse := by
    change initialQueue (vertexOrder.reverse.map _) = _
    rw [List.map_reverse, initialQueue, List.filter_reverse, List.map_reverse]
    rfl
  rw [nodes, queue] at backward
  intro left right inLeft inRight
  have placed := mem_iff_placed done
  exact Kahn.comparable_of_mirror vertices.distinct _ iteration.invariant forward backward
    ((placed left).mpr inLeft) ((placed right).mpr inRight)

end Agreement

/-- Nodes that hold these vertices compute one list, in whatever order each has added
them and iterates over its maps. -/
def Agreed (added : List DagVertex) : Prop :=
  ∀ others, (new.addVertices others).vertices = (new.addVertices added).vertices →
    ∀ (mine : Iteration (new.addVertices added)) (theirs : Iteration (new.addVertices others))
      (fuel : Nat), (new.addVertices added).vertices.keys.card ≤ fuel →
        (new.addVertices added).topologicalSort mine fuel =
          (new.addVertices others).topologicalSort theirs fuel

theorem agreed_iff (added : List DagVertex) : Agreed added ↔ (new.addVertices added).Chained := by
  constructor
  · intro agreed
    obtain ⟨vertexOrder, vertices⟩ :=
      FiniteMap.listing_exists (new.addVertices added).vertices
    exact chained_of_mirror vertices (agreed added rfl _ _ _ (Nat.le_refl _))
  · intro chained others same mine theirs fuel enough
    obtain ⟨result, done, runs⟩ := topologicalSort_total mine
    obtain ⟨result', done', runs'⟩ := topologicalSort_total theirs
    rw [runs fuel enough, runs' fuel (by rw [same]; exact enough),
      eq_of_chained chained same done done']

/-! ## Two vertices without parents -/

namespace Sample

/-- A vertex without parents, told apart by its hash alone. -/
def root (byte : UInt8) : DagVertex where
  hash := ⟨List.Vector.replicate 32 byte⟩
  parents := []
  timestamp := 1
  round := 1
  isBlock := true

theorem listing_roots :
    FiniteMap.Listing (new.addVertices [root 0, root 1]).vertices
      [((root 1).hash, root 1), ((root 0).hash, root 0)] :=
  (FiniteMap.listing_empty.insert _ Finmap.notMem_empty).insert _ (by decide)

end Sample

/-- Two roots are listed as the iterator meets them. -/
theorem roots_disagree : ¬ Agreed [Sample.root 0, Sample.root 1] := by
  intro agreed
  have same := agreed _ rfl (.along Sample.listing_roots) (.along Sample.listing_roots.reverse) 2
    (by decide)
  exact absurd same (by decide)

end ProtonChain.Consensus.DagOrdering
