import ServiceMap.Proofs.Rotation
import ServiceMap.Proofs.Search

/-! Every cycle that is reported is a cycle of calls between services, written from its least
service on, and none is reported twice. -/

namespace ServiceMap

open scoped List

/-- A walk along calls between services, from its least service back to it, which meets every
service once. -/
def Circuit (edges : List Edge) (c : List String) : Prop :=
  ∃ least rest, c = least :: (rest ++ [least]) ∧ rest ≠ [] ∧ (least :: rest).Nodup ∧
    (∀ s ∈ rest, compare least s = .lt) ∧ c.IsChain (Depends edges)

/-- The search among the edges, with the loops that it meets. -/
theorem found_traversal (edges : List Edge) :
    ∃ order loops, (Digraph.ofEdges edges).Traversal order loops ∧ order.Nodup ∧
      (Search.whole (.ofEdges edges)).found = loops.map Loop.turned := by
  have proper := Digraph.ofEdges_proper edges
  obtain ⟨order, loops, traversal, found⟩ := Search.whole_traversal proper
  exact ⟨order, loops, traversal, traversal.order_perm.nodup_iff.2 proper.nodes_nodup, found⟩

/-- The cycles reported are the loops met, turned and closed. -/
theorem cycles_traversal (edges : List Edge) :
    ∃ order loops, (Digraph.ofEdges edges).Traversal order loops ∧ order.Nodup ∧
      ∀ c, c ∈ cycles edges ↔ ∃ l ∈ loops, closed l.turned = c := by
  obtain ⟨order, loops, traversal, nodup, found⟩ := found_traversal edges
  exact ⟨order, loops, traversal, nodup, fun c => by simp [cycles, mem_ascending, found]⟩

namespace Loop

variable {l : Loop} {g : Digraph} {order : List String}

theorem turned_isRotated (l : Loop) : l.turned ~r l.nodes := leastFirst_isRotated l.nodes

theorem On.nodup (h : l.On g order) (nodup : order.Nodup) : l.nodes.Nodup := nodup.sublist h.sublist

theorem On.turned_startsLeast (h : l.On g order) (nodup : order.Nodup) : StartsLeast l.turned :=
  leastFirst_startsLeast (h.nodup nodup) (by simp [nodes])

theorem On.closed_isChain (h : l.On g order) : (closed l.turned).IsChain g.Leads := by
  refine closed_isChain_of_isRotated l.turned_isRotated ?_
  refine h.chain.append (.singleton l.first) fun a ha b hb => ?_
  obtain rfl : a = l.last := by simpa [nodes, List.getLast?_cons] using ha.symm
  obtain rfl : l.first = b := by simpa [nodes] using hb
  exact h.closes

theorem On.circuit {edges : List Edge} (h : l.On (.ofEdges edges) order) (nodup : order.Nodup) :
    Circuit edges (closed l.turned) := by
  have starts := h.turned_startsLeast nodup
  have distinct : l.turned.Nodup := l.turned_isRotated.nodup_iff.2 (h.nodup nodup)
  have long : l.turned.length = l.inner.length + 2 := by
    simp [l.turned_isRotated.perm.length_eq, nodes]
  have chain : (closed l.turned).IsChain (Depends edges) :=
    h.closed_isChain.imp fun _ _ => Digraph.leads_ofEdges.1
  cases eq : l.turned with
  | nil => simp [eq] at long
  | cons least rest =>
    rw [eq] at starts distinct long chain
    exact ⟨least, rest, by simp [closed], by rintro rfl; simp at long, distinct, starts, chain⟩

end Loop

theorem circuit_of_mem_cycles {edges : List Edge} {c : List String} (h : c ∈ cycles edges) :
    Circuit edges c := by
  obtain ⟨order, loops, traversal, nodup, mem⟩ := cycles_traversal edges
  obtain ⟨l, hl, rfl⟩ := (mem c).1 h
  exact (traversal.loops_on l hl).circuit nodup

theorem dropLast_closed {l : List String} (ne : l ≠ []) : (closed l).dropLast = l := by
  cases l with
  | nil => exact absurd rfl ne
  | cons a l => exact List.dropLast_concat

theorem StartsLeast.ne_nil {l : List String} (h : StartsLeast l) : l ≠ [] := by
  rintro rfl
  exact h

/-- The cycles before they are closed: in ascending order, each from its least member on. -/
theorem cycles_eq_map_closed (edges : List Edge) :
    ∃ turned : List (List String), cycles edges = turned.map closed ∧
      turned.Pairwise (fun a b => compare a b = .lt) ∧ ∀ a ∈ turned, StartsLeast a := by
  obtain ⟨order, loops, traversal, nodup, found⟩ := found_traversal edges
  refine ⟨_, rfl, ascending_pairwise compare _, fun a ha => ?_⟩
  rw [mem_ascending, found] at ha
  obtain ⟨l, hl, rfl⟩ := List.mem_map.1 ha
  exact (traversal.loops_on l hl).turned_startsLeast nodup

theorem cycles_pairwise (edges : List Edge) :
    (cycles edges).Pairwise fun c d => compare c d = .lt := by
  obtain ⟨turned, eq, ascends, starts⟩ := cycles_eq_map_closed edges
  rw [eq, List.pairwise_map]
  exact ascends.imp_of_mem fun ha hb lt => compare_closed (starts _ ha) (starts _ hb) lt

theorem cycles_pairwise_not_isRotated (edges : List Edge) :
    (cycles edges).Pairwise fun c d => ¬ c.dropLast ~r d.dropLast := by
  obtain ⟨turned, eq, ascends, starts⟩ := cycles_eq_map_closed edges
  rw [eq, List.pairwise_map]
  refine ascends.imp_of_mem fun {a b} ha hb lt turn => ?_
  rw [dropLast_closed (starts a ha).ne_nil, dropLast_closed (starts b hb).ne_nil] at turn
  obtain rfl := eq_of_isRotated (starts a ha) (starts b hb) turn
  simp at lt

/-- Every cycle reported is a circuit of calls between services; the cycles ascend, and no two are
the same up to where they start. -/
theorem cycles_canonical (edges : List Edge) :
    (∀ c ∈ cycles edges, Circuit edges c) ∧
      (cycles edges).Pairwise (fun c d => compare c d = .lt) ∧
      (cycles edges).Pairwise fun c d => ¬ c.dropLast ~r d.dropLast :=
  ⟨fun _ => circuit_of_mem_cycles, cycles_pairwise edges, cycles_pairwise_not_isRotated edges⟩

/-- Two cycles that share a service, a service that calls itself, and a call given twice. -/
def sharingCalls : List Edge :=
  [⟨"b", "a", .ofList ["x"]⟩, ⟨"a", "b", .ofList ["y"]⟩, ⟨"b", "b", .ofList ["x"]⟩,
    ⟨"c", "b", .ofList []⟩, ⟨"b", "c", .ofList []⟩, ⟨"a", "b", .ofList ["x"]⟩]

theorem cycles_canonical_sharingCalls :
    ["b", "c", "b"] ∈ cycles sharingCalls ∧ Circuit sharingCalls ["b", "c", "b"] := by
  have found : ["b", "c", "b"] ∈ cycles sharingCalls := by
    have : cycles sharingCalls = [["a", "b", "a"], ["b", "c", "b"]] := by cbv
    simp [this]
  exact ⟨found, (cycles_canonical sharingCalls).1 _ found⟩

end ServiceMap
