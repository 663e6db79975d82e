import ProtonChain.Types
import ProtonChain.Library.FiniteMap

/-! The DAG of vertices, its topological sort and its search for ancestors.

The sort iterates over two hash maps, the vertices and the in-degrees it has counted;
the two orders are arguments. In-degrees are the numbers of parents, which no vector
lets reach the word size; a decrement of zero is an outcome of its own.
-/

set_option autoImplicit false

namespace ProtonChain.Consensus

structure DagVertex where
  hash : Hash
  parents : List Hash
  timestamp : U64
  round : U64
  isBlock : Bool
  deriving DecidableEq

structure DagOrdering where
  vertices : HashMap Hash DagVertex
  edges : HashMap Hash (List Hash)

/-- The local maps `in_degree` and `adj`. -/
structure Degrees where
  inDegree : HashMap Hash Nat
  adj : HashMap Hash (List Hash)

namespace Degrees

/-- `in_degree.entry(hash).or_insert(0)`. -/
def enter (degrees : Degrees) (hash : Hash) : Degrees :=
  { degrees with
    inDegree := degrees.inDegree.insert hash ((degrees.inDegree.lookup hash).getD 0) }

def countParent (hash : Hash) (degrees : Degrees) (parent : Hash) : Degrees where
  adj := degrees.adj.insert parent ((degrees.adj.lookup parent).getD [] ++ [hash])
  inDegree := degrees.inDegree.insert hash ((degrees.inDegree.lookup hash).getD 0 + 1)

def countVertex (degrees : Degrees) (entry : Hash × DagVertex) : Degrees :=
  entry.2.parents.foldl (countParent entry.1) (degrees.enter entry.1)

def count (vertexOrder : List (Hash × DagVertex)) : Degrees :=
  vertexOrder.foldl countVertex ⟨∅, ∅⟩

end Degrees

/-- The vertices with in-degree zero, as the iterator meets them. -/
def initialQueue (degreeOrder : List (Hash × Nat)) : List Hash :=
  (degreeOrder.filter fun entry => entry.2 = 0).map Prod.fst

/-- The body of the loop over the neighbors: in-degrees and queue after it, or `none`
if zero is decremented. -/
def visitNeighbor (reached : HashMap Hash Nat × List Hash) (neighbor : Hash) :
    Option (HashMap Hash Nat × List Hash) :=
  match reached.1.lookup neighbor with
  | none => some reached
  | some 0 => none
  | some (degree + 1) =>
    some (reached.1.insert neighbor degree,
      if degree = 0 then reached.2 ++ [neighbor] else reached.2)

def visitNeighbors (inDegree : HashMap Hash Nat) (queue neighbors : List Hash) :
    Option (HashMap Hash Nat × List Hash) :=
  neighbors.foldlM visitNeighbor (inDegree, queue)

/-- The loop over the queue; `none` also if the fuel runs out. -/
def drainQueue (adj : HashMap Hash (List Hash)) :
    Nat → HashMap Hash Nat → List Hash → List Hash → Option (List Hash)
  | _, _, [], result => some result
  | 0, _, _ :: _, _ => none
  | fuel + 1, inDegree, current :: queue, result =>
    match visitNeighbors inDegree queue ((adj.lookup current).getD []) with
    | none => none
    | some (inDegree, queue) => drainQueue adj fuel inDegree queue (result ++ [current])

/-- The loop over the stack of the search, the top of the stack first; `none` if the fuel
runs out. -/
def searchAncestors (edges : HashMap Hash (List Hash)) :
    Nat → HashMap Hash Bool → List Hash → List Hash → Option (List Hash)
  | _, _, [], result => some result
  | 0, _, _ :: _, _ => none
  | fuel + 1, visited, current :: stack, result =>
    if current ∈ visited then searchAncestors edges fuel visited stack result
    else
      let parents := (edges.lookup current).getD []
      searchAncestors edges fuel (visited.insert current true)
        (parents.foldl (fun stack parent => parent :: stack) stack) (result ++ [current])

namespace DagOrdering

def new : DagOrdering where
  vertices := ∅
  edges := ∅

def addVertex (dag : DagOrdering) (vertex : DagVertex) : DagOrdering where
  vertices := dag.vertices.insert vertex.hash vertex
  edges := dag.edges.insert vertex.hash vertex.parents

def addVertices (dag : DagOrdering) (added : List DagVertex) : DagOrdering :=
  added.foldl addVertex dag

/-- The orders in which one call meets the entries of its two maps. -/
structure Iteration (dag : DagOrdering) where
  vertexOrder : List (Hash × DagVertex)
  vertices : FiniteMap.Listing dag.vertices vertexOrder
  degreeOrder : List (Hash × Nat)
  degrees : FiniteMap.Listing (Degrees.count vertexOrder).inDegree degreeOrder

def topologicalSort (dag : DagOrdering) (iteration : Iteration dag) (fuel : Nat) :
    Option (List Hash) :=
  let degrees := Degrees.count iteration.vertexOrder
  drainQueue degrees.adj fuel degrees.inDegree (initialQueue iteration.degreeOrder) []

def getAncestors (dag : DagOrdering) (fuel : Nat) (hash : Hash) : Option (List Hash) :=
  searchAncestors dag.edges fuel ∅ [hash] []

def parents (dag : DagOrdering) (hash : Hash) : List Hash :=
  (dag.vertices.lookup hash).elim [] DagVertex.parents

end DagOrdering

end ProtonChain.Consensus
