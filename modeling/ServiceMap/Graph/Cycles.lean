import ServiceMap.Graph.Digraph

/-! Cycles among services, found by a depth-first search. Every node that no earlier search has
visited starts one. An arc that leads back to a node on the way closes a cycle, which is recorded,
and the search goes on. The search ends: every step visits a node for the first time, or visits none
and has less left to try. -/

namespace ServiceMap

/-- A cycle turned so that its least member comes first. -/
def leastFirst (cycle : List String) : List String :=
  match sortBy compare cycle with
  | [] => []
  | least :: _ => cycle.dropWhile (· ≠ least) ++ cycle.takeWhile (· ≠ least)

/-- A node on the way of a search, with the successors that it has still to try. -/
structure Frame where
  node : String
  untried : List String
  deriving DecidableEq, Repr

structure Search where
  /-- The way from the start, the innermost node first. -/
  stack : List Frame
  /-- The nodes of the way, the start first. -/
  path : List String
  /-- The nodes marked as on the way. -/
  onPath : List String
  /-- The nodes not visited yet. -/
  fresh : List String
  /-- The cycles met, each turned to its least member. -/
  found : List (List String)
  deriving DecidableEq, Repr

namespace Search

def start (g : Digraph) : Search := ⟨[], [], [], g.nodes, []⟩

/-- Goes one node further. -/
def enter (g : Digraph) (s : Search) (node : String) : Search :=
  { s with
    stack := ⟨node, g.successors node⟩ :: s.stack
    path := s.path ++ [node]
    onPath := node :: s.onPath
    fresh := s.fresh.erase node }

/-- The way back from a node that has no successor left to try. -/
def leave (s : Search) (node : String) (rest : List Frame) : Search :=
  { s with stack := rest, path := s.path.dropLast, onPath := s.onPath.erase node }

/-- One step of the search; nothing when the way has come to its end. -/
def step? (g : Digraph) (s : Search) : Option Search :=
  match s.stack with
  | [] => none
  | ⟨node, []⟩ :: rest => some (s.leave node rest)
  | ⟨node, next :: untried⟩ :: rest =>
    let s := { s with stack := ⟨node, untried⟩ :: rest }
    if next ∈ s.onPath then
      some { s with found := s.found ++ [leastFirst (s.path.dropWhile (· ≠ next))] }
    else if next ∈ s.fresh then some (s.enter g next)
    else some s

/-- What a step can do. -/
inductive Move (g : Digraph) (s : Search) : Search → Prop where
  | leave {node : String} {rest : List Frame} (top : s.stack = ⟨node, []⟩ :: rest) :
      Move g s (s.leave node rest)
  | close {node next : String} {untried : List String} {rest : List Frame}
      (top : s.stack = ⟨node, next :: untried⟩ :: rest) (back : next ∈ s.onPath) :
      Move g s { s with
        stack := ⟨node, untried⟩ :: rest
        found := s.found ++ [leastFirst (s.path.dropWhile (· ≠ next))] }
  | enter {node next : String} {untried : List String} {rest : List Frame}
      (top : s.stack = ⟨node, next :: untried⟩ :: rest) (away : next ∉ s.onPath)
      (fresh : next ∈ s.fresh) : Move g s ({ s with stack := ⟨node, untried⟩ :: rest }.enter g next)
  | pass {node next : String} {untried : List String} {rest : List Frame}
      (top : s.stack = ⟨node, next :: untried⟩ :: rest) (away : next ∉ s.onPath)
      (visited : next ∉ s.fresh) : Move g s { s with stack := ⟨node, untried⟩ :: rest }

theorem move_of_step? {g : Digraph} {s t : Search} (h : s.step? g = some t) : s.Move g t := by
  unfold step? at h
  split at h
  · cases h
  · next top =>
    cases h
    exact .leave top
  · next top =>
    dsimp only at h
    split at h
    · next back =>
      cases h
      exact .close top back
    · next away =>
      split at h
      · next fresh =>
        cases h
        exact .enter top away fresh
      · next visited =>
        cases h
        exact .pass top away visited

/-- What is left to try on the way: every node counts once more for leaving it. -/
def remaining (s : Search) : Nat := s.stack.foldr (fun f n => f.untried.length + 1 + n) 0

theorem step?_lt {g : Digraph} {s t : Search} (h : s.step? g = some t) :
    t.fresh.length < s.fresh.length ∨
      t.fresh.length = s.fresh.length ∧ t.remaining < s.remaining := by
  cases move_of_step? h with
  | leave top => simp [leave, remaining, top]
  | close top _ => simp [remaining, top]
  | enter _ _ fresh =>
    have := List.length_pos_of_mem fresh
    simp only [enter, List.length_erase_of_mem fresh]
    omega
  | pass top _ _ => simp [remaining, top]

/-- The search carried on until the way has come to its end. -/
def run (g : Digraph) (s : Search) : Search :=
  match _h : s.step? g with
  | none => s
  | some t => run g t
termination_by (s.fresh.length, s.remaining)
decreasing_by
  rcases step?_lt _h with lt | ⟨eq, lt⟩
  · exact .left _ _ lt
  · rw [eq]; exact .right _ lt

/-- A search from a node, unless it has been visited. -/
def visit (g : Digraph) (s : Search) (node : String) : Search :=
  if node ∈ s.fresh then (s.enter g node).run g else s

/-- The searches from all nodes, in ascending order. -/
def whole (g : Digraph) : Search := g.nodes.foldl (visit g) (start g)

end Search

/-- A cycle with its first member repeated at the end. -/
def closed (cycle : List String) : List String := cycle ++ cycle.take 1

/-- The cycles that the search finds among the edges, each once, in ascending order. -/
def cycles (edges : List Edge) : List (List String) :=
  (ascending compare (Search.whole (.ofEdges edges)).found).map closed

end ServiceMap
