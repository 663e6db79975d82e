import ProtonChain.Consensus.DagOrdering
import ProtonChain.Library.Kahn

/-! What the topological sort returns, for every graph and every iteration order.

The in-degree of a vertex counts, with repetition, its parents that are not in the result
yet. With this read off the maps, the loop over the queue is the traversal that settles
each node after its parents.
-/

set_option autoImplicit false

namespace ProtonChain.Consensus

/-! ## Counting -/

namespace Degrees

/-- `adj.get(&parent)`, where no entry means no neighbors. -/
def neighbors (degrees : Degrees) (parent : Hash) : List Hash :=
  (degrees.adj.lookup parent).getD []

theorem neighbors_countParents (hash : Hash) (parents : List Hash) (degrees : Degrees)
    (parent : Hash) :
    (parents.foldl (countParent hash) degrees).neighbors parent =
      degrees.neighbors parent ++ List.replicate (parents.count parent) hash := by
  induction parents generalizing degrees with
  | nil => simp
  | cons first rest ih =>
    rw [List.foldl_cons, ih, List.count_cons]
    by_cases same : first = parent
    · subst same
      have pushed : (countParent hash degrees first).neighbors first =
          degrees.neighbors first ++ [hash] := by
        simp [neighbors, countParent]
      rw [pushed, List.append_assoc, beq_self_eq_true, if_pos rfl, List.replicate_succ]
      rfl
    · have kept : (countParent hash degrees first).neighbors parent = degrees.neighbors parent := by
        simp [neighbors, countParent, Finmap.lookup_insert_of_ne _ (Ne.symm same)]
      rw [kept]
      simp [same]

theorem inDegree_countParents (hash : Hash) (parents : List Hash) (degrees : Degrees) (key : Hash)
    {degree : Nat} (known : degrees.inDegree.lookup hash = some degree) :
    (parents.foldl (countParent hash) degrees).inDegree.lookup key =
      if key = hash then some (degree + parents.length) else degrees.inDegree.lookup key := by
  induction parents generalizing degrees degree with
  | nil =>
    split
    next same => rw [same]; exact known
    next => rfl
  | cons first rest ih =>
    have counted : (countParent hash degrees first).inDegree =
        degrees.inDegree.insert hash (degree + 1) := by
      rw [countParent, known]
      rfl
    have lookup := FiniteMap.lookup_insert degrees.inDegree hash
    rw [List.foldl_cons, ih _ (by rw [counted, lookup, if_pos rfl]), counted, lookup,
      List.length_cons, Nat.add_right_comm, Nat.add_assoc]
    split <;> rfl

theorem neighbors_countVertex (degrees : Degrees) (entry : Hash × DagVertex) (parent : Hash) :
    (degrees.countVertex entry).neighbors parent =
      degrees.neighbors parent ++ List.replicate (entry.2.parents.count parent) entry.1 :=
  neighbors_countParents entry.1 entry.2.parents (degrees.enter entry.1) parent

theorem inDegree_countVertex (degrees : Degrees) (entry : Hash × DagVertex) (key : Hash)
    (fresh : degrees.inDegree.lookup entry.1 = none) :
    (degrees.countVertex entry).inDegree.lookup key =
      if key = entry.1 then some entry.2.parents.length else degrees.inDegree.lookup key := by
  have entered : (degrees.enter entry.1).inDegree = degrees.inDegree.insert entry.1 0 := by
    rw [enter, fresh]
    rfl
  have lookup := FiniteMap.lookup_insert degrees.inDegree entry.1
  rw [countVertex, inDegree_countParents _ _ _ _ (by rw [entered, lookup, if_pos rfl]), entered,
    lookup, Nat.zero_add]
  split <;> rfl

theorem neighbors_count (vertexOrder : List (Hash × DagVertex)) (parent : Hash) :
    (count vertexOrder).neighbors parent =
      vertexOrder.flatMap fun entry => List.replicate (entry.2.parents.count parent) entry.1 := by
  induction vertexOrder using List.reverseRecOn with
  | nil => rfl
  | append_singleton vertexOrder last ih =>
    have counted : count (vertexOrder ++ [last]) = (count vertexOrder).countVertex last :=
      List.foldl_concat ..
    rw [counted, neighbors_countVertex, ih, List.flatMap_append, List.flatMap_singleton]

/-- A vertex is counted when the loop meets it, and at no other time. -/
theorem inDegree_count {vertexOrder : List (Hash × DagVertex)}
    (distinct : (vertexOrder.map Prod.fst).Nodup) :
    (∀ entry ∈ vertexOrder,
      (count vertexOrder).inDegree.lookup entry.1 = some entry.2.parents.length) ∧
    ∀ key, key ∉ vertexOrder.map Prod.fst → (count vertexOrder).inDegree.lookup key = none := by
  induction vertexOrder using List.reverseRecOn with
  | nil => exact ⟨fun _ member => (List.not_mem_nil member).elim, fun _ _ => rfl⟩
  | append_singleton vertexOrder last ih =>
    rw [List.map_append, List.nodup_append] at distinct
    obtain ⟨inner, -, apart⟩ := distinct
    obtain ⟨counts, others⟩ := ih inner
    have fresh : last.1 ∉ vertexOrder.map Prod.fst := fun member =>
      apart last.1 member last.1 (List.mem_singleton_self _) rfl
    have counted : count (vertexOrder ++ [last]) = (count vertexOrder).countVertex last :=
      List.foldl_concat ..
    have step := inDegree_countVertex (count vertexOrder) last
    constructor
    · intro entry member
      rw [counted, step entry.1 (others last.1 fresh)]
      rcases List.mem_append.mp member with early | final
      · have other : entry.1 ≠ last.1 := fun same => fresh (same ▸ List.mem_map_of_mem early)
        rw [if_neg other]
        exact counts entry early
      · rw [List.mem_singleton.mp final, if_pos rfl]
    · intro key missing
      rw [List.map_append, List.mem_append, not_or, List.map_singleton, List.mem_singleton]
        at missing
      rw [counted, step key (others last.1 fresh), if_neg missing.2]
      exact others key missing.1

end Degrees

/-! ## One node after another -/

section Loop
variable {inDegree : HashMap Hash Nat} (queue : List Hash)

theorem visitNeighbors_append (first second : List Hash) :
    visitNeighbors inDegree queue (first ++ second) =
      (visitNeighbors inDegree queue first).bind fun reached =>
        visitNeighbors reached.1 reached.2 second :=
  List.foldlM_append

theorem visitNeighbors_replicate {node : Hash} {rest : Nat} (times : Nat)
    (known : inDegree.lookup node = some (times + rest)) :
    ∃ after, visitNeighbors inDegree queue (List.replicate times node) =
        some (after, queue ++ if 0 < times ∧ rest = 0 then [node] else []) ∧
      ∀ other, after.lookup other = if other = node then some rest else inDegree.lookup other := by
  induction times generalizing inDegree queue with
  | zero =>
    refine ⟨inDegree, ?_, fun other => ?_⟩
    · rw [if_neg (fun more => absurd more.1 (Nat.lt_irrefl 0)), List.append_nil]
      rfl
    · split
      next same => rw [same, known, Nat.zero_add]
      next => rfl
  | succ times ih =>
    rw [Nat.add_right_comm] at known
    have visited : visitNeighbor (inDegree, queue) node =
        some (inDegree.insert node (times + rest),
          if times + rest = 0 then queue ++ [node] else queue) := by
      simp only [visitNeighbor, known]
    have lookup := FiniteMap.lookup_insert inDegree node
    have later : (inDegree.insert node (times + rest)).lookup node = some (times + rest) := by
      rw [lookup, if_pos rfl]
    obtain ⟨after, runs, reads⟩ := ih (if times + rest = 0 then queue ++ [node] else queue) later
    refine ⟨after, ?_, fun other => ?_⟩
    · rw [List.replicate_succ, visitNeighbors, List.foldlM_cons, visited]
      refine runs.trans ?_
      by_cases last : times + rest = 0
      · obtain ⟨rfl, rfl⟩ := Nat.add_eq_zero_iff.mp last
        simp
      · by_cases done : rest = 0
        · have more : 0 < times := by omega
          simp [done, more, more.ne']
        · simp [done]
    · rw [reads, lookup]
      split <;> rfl

theorem visitNeighbors_flatMap {nodes : List Hash} (times rest : Hash → Nat)
    (distinct : nodes.Nodup)
    (known : ∀ node ∈ nodes, inDegree.lookup node = some (times node + rest node)) :
    ∃ after, visitNeighbors inDegree queue
          (nodes.flatMap fun node => List.replicate (times node) node) =
        some (after, queue ++ nodes.filter fun node => 0 < times node ∧ rest node = 0) ∧
      ∀ other, after.lookup other =
        if other ∈ nodes then some (rest other) else inDegree.lookup other := by
  induction nodes generalizing inDegree queue with
  | nil => exact ⟨inDegree, by rw [List.filter_nil, List.append_nil]; rfl, fun _ => rfl⟩
  | cons first nodes ih =>
    obtain ⟨fresh, distinct⟩ := List.nodup_cons.mp distinct
    obtain ⟨middle, start, here⟩ := visitNeighbors_replicate queue (times first)
      (known first List.mem_cons_self)
    have later : ∀ node ∈ nodes, middle.lookup node = some (times node + rest node) := by
      intro node member
      have other : node ≠ first := fun same => fresh (same ▸ member)
      rw [here, if_neg other]
      exact known node (List.mem_cons_of_mem _ member)
    obtain ⟨after, runs, reads⟩ := ih _ distinct later
    refine ⟨after, ?_, fun other => ?_⟩
    · rw [List.flatMap_cons, visitNeighbors_append, start]
      refine runs.trans ?_
      rw [List.append_assoc, List.filter_cons]
      simp only [decide_eq_true_eq]
      split <;> rfl
    · rw [reads, here]
      by_cases same : other = first
      · subst same
        rw [if_neg fresh, if_pos rfl, if_pos List.mem_cons_self]
      · simp [same]

end Loop

/-! ## The loop is the traversal -/

section Simulation
variable (nodes : List Hash) (parents : Hash → List Hash)

/-- Each node's in-degree counts the parents that the result does not hold yet. -/
def Tracks (inDegree : HashMap Hash Nat) (result : List Hash) : Prop :=
  ∀ node, inDegree.lookup node =
    if node ∈ nodes then some ((parents node).countP fun parent => parent ∉ result) else none

/-- Each edge stands once in the list of its parent, in the order of the children. -/
def Listed (adj : HashMap Hash (List Hash)) : Prop :=
  ∀ parent, (adj.lookup parent).getD [] =
    nodes.flatMap fun node => List.replicate ((parents node).count parent) node

variable {nodes parents} {inDegree : HashMap Hash Nat} {adj : HashMap Hash (List Hash)}
  {current : Hash} {queue result : List Hash}

/-- The edges that one more node in the result takes off the count. -/
theorem countP_split (fresh : current ∉ result) (below : List Hash) :
    (below.countP fun parent => parent ∉ result) =
      below.count current + below.countP fun parent => parent ∉ result ++ [current] := by
  induction below with
  | nil => rfl
  | cons first below ih =>
    rw [List.countP_cons, List.count_cons, List.countP_cons, ih]
    by_cases same : first = current
    · subst same
      simp [fresh]
      omega
    · simp [same]
      omega

theorem tracks_step (queue : List Hash) (distinct : nodes.Nodup) (listed : Listed nodes parents adj)
    (tracks : Tracks nodes parents inDegree result) (fresh : current ∉ result) :
    ∃ after, visitNeighbors inDegree queue ((adj.lookup current).getD []) =
        some (after, queue ++ Kahn.ready nodes parents current (result ++ [current])) ∧
      Tracks nodes parents after (result ++ [current]) := by
  have known : ∀ node ∈ nodes, inDegree.lookup node =
      some ((parents node).count current +
        (parents node).countP fun parent => parent ∉ result ++ [current]) := by
    intro node member
    rw [tracks, if_pos member, countP_split fresh]
  obtain ⟨after, runs, reads⟩ := visitNeighbors_flatMap queue _ _ distinct known
  refine ⟨after, ?_, fun node => ?_⟩
  · rw [listed, runs, Kahn.ready]
    congr 3
    apply List.filter_congr
    intro node _
    simp only [List.count_pos_iff, List.countP_eq_zero, decide_eq_true_eq, Classical.not_not]
  · rw [reads]
    split
    next => rfl
    next missing => rw [tracks, if_neg missing]

theorem drainQueue_eq_drain (distinct : nodes.Nodup) (listed : Listed nodes parents adj)
    (fuel : Nat) (tracks : Tracks nodes parents inDegree result)
    (inv : Kahn.Invariant nodes parents queue result) :
    drainQueue adj fuel inDegree queue result = Kahn.drain nodes parents fuel queue result := by
  induction fuel generalizing inDegree queue result with
  | zero => cases queue <;> rfl
  | succ fuel ih =>
    cases queue with
    | nil => rfl
    | cons current queue =>
      have fresh : current ∉ result := fun early =>
        (List.nodup_append.mp inv.distinct).2.2 current early current List.mem_cons_self rfl
      obtain ⟨after, runs, tracks⟩ := tracks_step queue distinct listed tracks fresh
      rw [drainQueue, runs]
      exact ih tracks (Kahn.invariant_step distinct inv)

end Simulation

namespace DagOrdering

variable {dag : DagOrdering}

def Iteration.nodes (iteration : Iteration dag) : List Hash := iteration.vertexOrder.map Prod.fst

theorem Iteration.mem_nodes (iteration : Iteration dag) (hash : Hash) :
    hash ∈ iteration.nodes ↔ hash ∈ dag.vertices :=
  iteration.vertices.mem_keys hash

theorem Iteration.parents_eq (iteration : Iteration dag) {entry : Hash × DagVertex}
    (member : entry ∈ iteration.vertexOrder) : dag.parents entry.1 = entry.2.parents := by
  rw [parents, (iteration.vertices.listed entry.1 entry.2).mp member]
  rfl

theorem Iteration.listed (iteration : Iteration dag) :
    Listed iteration.nodes dag.parents (Degrees.count iteration.vertexOrder).adj := by
  intro parent
  refine (Degrees.neighbors_count iteration.vertexOrder parent).trans ?_
  rw [nodes, List.flatMap_map]
  apply List.flatMap_congr
  intro entry member
  rw [iteration.parents_eq member]

theorem Iteration.tracks (iteration : Iteration dag) :
    Tracks iteration.nodes dag.parents (Degrees.count iteration.vertexOrder).inDegree [] := by
  intro node
  obtain ⟨counts, others⟩ := Degrees.inDegree_count iteration.vertices.distinct
  split
  next member =>
    obtain ⟨entry, here, rfl⟩ := List.mem_map.mp member
    rw [counts entry here, iteration.parents_eq here]
    simp
  next missing => exact others node missing

/-- The queue starts with the vertices that have no parents. -/
theorem Iteration.invariant (iteration : Iteration dag) :
    Kahn.Invariant iteration.nodes dag.parents (initialQueue iteration.degreeOrder) [] := by
  have distinct : (initialQueue iteration.degreeOrder).Nodup :=
    iteration.degrees.distinct.sublist (List.filter_sublist.map Prod.fst)
  refine Kahn.invariant_start distinct fun node => ?_
  have degree := iteration.tracks node
  rw [initialQueue, List.mem_map]
  constructor
  · intro ⟨entry, member, same⟩
    obtain ⟨listed, zero⟩ := List.mem_filter.mp member
    have found := (iteration.degrees.listed entry.1 entry.2).mp listed
    rw [same, degree, of_decide_eq_true zero] at found
    split at found
    next present =>
      refine ⟨present, ?_⟩
      simpa using found
    next => cases found
  · intro ⟨present, root⟩
    rw [if_pos present, root] at degree
    refine ⟨(node, 0), List.mem_filter.mpr ⟨?_, rfl⟩, rfl⟩
    exact (iteration.degrees.listed node 0).mpr degree

theorem topologicalSort_eq (iteration : Iteration dag) (fuel : Nat) :
    dag.topologicalSort iteration fuel =
      Kahn.drain iteration.nodes dag.parents fuel (initialQueue iteration.degreeOrder) [] :=
  drainQueue_eq_drain iteration.vertices.distinct iteration.listed fuel iteration.tracks
    iteration.invariant

/-- A vertex that is present with all its ancestors, neither on a cycle nor below one. -/
structure Placed (dag : DagOrdering) (hash : Hash) : Prop where
  present : hash ∈ dag.vertices
  ancestors : ∀ ancestor, Kahn.Ancestor dag.parents ancestor hash → ancestor ∈ dag.vertices
  acyclic : ¬ Kahn.Ancestor dag.parents hash hash
  aboveCycles : ∀ ancestor, Kahn.Ancestor dag.parents ancestor hash →
    ¬ Kahn.Ancestor dag.parents ancestor ancestor

theorem Iteration.grounded_iff_placed (iteration : Iteration dag) (hash : Hash) :
    Kahn.Grounded iteration.nodes dag.parents hash ↔ dag.Placed hash := by
  have present := iteration.mem_nodes
  rw [Kahn.grounded_iff_rooted]
  constructor
  · intro ⟨member, above, acyclic, cycles⟩
    exact ⟨(present hash).mp member,
      fun ancestor path => (present ancestor).mp (above ancestor path), acyclic, cycles⟩
  · intro ⟨member, above, acyclic, cycles⟩
    exact ⟨(present hash).mpr member,
      fun ancestor path => (present ancestor).mpr (above ancestor path), acyclic, cycles⟩

def Complete (dag : DagOrdering) : Prop :=
  ∀ hash, ∀ parent ∈ dag.parents hash, parent ∈ dag.vertices

def Acyclic (dag : DagOrdering) : Prop := ∀ hash, ¬ Kahn.Ancestor dag.parents hash hash

theorem placed_of_complete (complete : dag.Complete) (acyclic : dag.Acyclic) {hash : Hash}
    (present : hash ∈ dag.vertices) : dag.Placed hash where
  present := present
  ancestors ancestor path := by
    obtain ⟨child, edge, -⟩ := Relation.TransGen.head'_iff.mp path
    exact complete child ancestor edge
  acyclic := acyclic hash
  aboveCycles ancestor _ := acyclic ancestor

theorem topologicalSort_total (iteration : Iteration dag) :
    ∃ result, Kahn.Invariant iteration.nodes dag.parents [] result ∧
      ∀ fuel, dag.vertices.keys.card ≤ fuel →
        dag.topologicalSort iteration fuel = some result := by
  have count : iteration.nodes.length ≤ ([] : List Hash).length + dag.vertices.keys.card := by
    rw [Iteration.nodes, List.length_map, iteration.vertices.length_eq]
    exact Nat.le_add_left _ _
  obtain ⟨result, done, runs⟩ := Kahn.drain_total iteration.vertices.distinct _
    iteration.invariant count
  exact ⟨result, done, fun fuel enough =>
    (topologicalSort_eq iteration fuel).trans (runs fuel enough)⟩

theorem mem_iff_placed {iteration : Iteration dag} {result : List Hash}
    (done : Kahn.Invariant iteration.nodes dag.parents [] result) (hash : Hash) :
    hash ∈ result ↔ dag.Placed hash :=
  (Kahn.mem_iff_grounded done hash).trans (iteration.grounded_iff_placed hash)

theorem topologicalSort_correct (dag : DagOrdering) (iteration : Iteration dag) :
    ∃ result,
      (∀ fuel, dag.vertices.keys.card ≤ fuel →
        dag.topologicalSort iteration fuel = some result) ∧
      result.Nodup ∧ Kahn.ParentsFirst dag.parents result ∧
      (∀ hash, hash ∈ result ↔ dag.Placed hash) ∧
      (dag.Complete → dag.Acyclic → result.Perm (iteration.vertexOrder.map Prod.fst)) := by
  obtain ⟨result, done, runs⟩ := topologicalSort_total iteration
  have placed := mem_iff_placed done
  refine ⟨result, runs, done.nodup, done.parentsFirst, placed, fun complete acyclic => ?_⟩
  apply (List.perm_ext_iff_of_nodup done.nodup iteration.vertices.distinct).mpr
  intro hash
  rw [placed, iteration.vertices.mem_keys]
  constructor
  · intro kept
    exact kept.present
  · exact placed_of_complete complete acyclic

end DagOrdering

end ProtonChain.Consensus
