import ServiceMap.Graph.Edge

/-! The bare graph that cycles are looked for in: names, and at most one weighted arc from one to
another. It is the same for every order of the edges that it is made of. -/

namespace ServiceMap

structure Arc where
  source : String
  target : String
  /-- How many APIs the edge has. -/
  weight : Nat
  deriving DecidableEq, Repr

structure Digraph where
  /-- In ascending order. -/
  nodes : List String
  /-- In ascending order of source and target. -/
  arcs : List Arc
  deriving DecidableEq, Repr

namespace Digraph

/-- The edges that lead from one service to another, in ascending order. Of several edges between
the same two the least counts. -/
def kept (edges : List Edge) : List Edge :=
  firsts (fun a b => Edge.pairOrder a b = .eq) (sortBy compare (edges.filter (!·.isLoop)))

def ofEdges (edges : List Edge) : Digraph where
  nodes := ascending compare ((kept edges).flatMap fun e => [e.consumer, e.provider])
  arcs := (kept edges).map fun e => ⟨e.consumer, e.provider, e.apis.size⟩

/-- Where the arcs of a node lead, in ascending order. -/
def successors (g : Digraph) (node : String) : List String :=
  (g.arcs.filter fun a => a.source = node).map Arc.target

/-- The numbers of the nodes: each has its place in the order of the names. -/
def index (g : Digraph) : List (String × Nat) := g.nodes.zipIdx

/-- The arcs by the numbers of their ends, and their weights. An end without a number leaves the graph
without this form. -/
def numbered? (g : Digraph) : Option (List (Nat × Nat × Nat)) :=
  g.arcs.mapM fun a => do
    return (← g.index.lookup a.source, ← g.index.lookup a.target, a.weight)

end Digraph
end ServiceMap
