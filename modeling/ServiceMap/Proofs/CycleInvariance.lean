import ServiceMap.Proofs.Cycles

/-! Which cycles are reported depends on nothing but which service calls which other one. The search looks
at the nodes of the graph and at their successors, both in ascending order; so it is the same search, step
for step, in whatever order the edges come, how often one is given and which APIs it has. -/

namespace ServiceMap

/-- Two graphs with the same nodes and successors. The weights of their arcs may differ. -/
structure Digraph.Alike (g h : Digraph) : Prop where
  nodes : g.nodes = h.nodes
  successors : ∀ a, g.successors a = h.successors a

theorem Digraph.alike_ofEdges {edges more : List Edge}
    (same : ∀ a b, Depends edges a b ↔ Depends more a b) : (ofEdges edges).Alike (ofEdges more) where
  nodes := by
    apply eq_of_ascending (ascending_pairwise compare _) (ascending_pairwise compare _)
    intro a
    change a ∈ (ofEdges edges).nodes ↔ a ∈ (ofEdges more).nodes
    simp only [mem_nodes_ofEdges, same]
  successors := by
    intro a
    apply eq_of_ascending (successors_ofEdges_pairwise edges a) (successors_ofEdges_pairwise more a)
    intro b
    change (ofEdges edges).Leads a b ↔ (ofEdges more).Leads a b
    rw [leads_ofEdges, leads_ofEdges, same]

namespace Search

variable {g h : Digraph}

theorem enter_congr (alike : g.Alike h) (s : Search) (node : String) : s.enter g node = s.enter h node := by
  unfold enter
  rw [alike.successors]

theorem step?_congr (alike : g.Alike h) (s : Search) : s.step? g = s.step? h := by
  unfold step?
  split
  · rfl
  · rfl
  · simp only [enter_congr alike]

theorem run_of_stop {s : Search} (stop : s.step? g = none) : s.run g = s := by
  rw [run]
  split
  · rfl
  · next go =>
    rw [stop] at go
    cases go

theorem run_of_step {s t : Search} (go : s.step? g = some t) : s.run g = t.run g := by
  rw [run]
  split
  · next stop =>
    rw [go] at stop
    cases stop
  · next other =>
    rw [go] at other
    cases other
    rfl

/-- The induction is on the steps of the one search; the other takes the same ones. -/
theorem run_congr (alike : g.Alike h) (s : Search) : s.run g = s.run h := by
  fun_induction run g s with
  | case1 s stop =>
    rw [step?_congr alike] at stop
    exact (run_of_stop stop).symm
  | case2 s t go ih =>
    rw [step?_congr alike] at go
    exact ih.trans (run_of_step go).symm

theorem visit_congr (alike : g.Alike h) (s : Search) (node : String) : s.visit g node = s.visit h node := by
  unfold visit
  rw [enter_congr alike, run_congr alike]

/-- The searches from all nodes end in the same state. -/
theorem whole_congr (alike : g.Alike h) : whole g = whole h := by
  have visits : visit g = visit h := by
    funext s node
    exact visit_congr alike s node
  unfold whole start
  rw [visits, alike.nodes]

end Search

/-- The cycles reported are told by which service calls which other one. -/
theorem cycles_congr {edges more : List Edge} (same : ∀ a b, Depends edges a b ↔ Depends more a b) :
    cycles edges = cycles more := by
  unfold cycles
  rw [Search.whole_congr (Digraph.alike_ofEdges same)]

/-- The calls of `sharingCalls` and no more: each once, in another order, with other APIs. -/
def sharingPairs : List Edge :=
  [⟨"c", "b", .ofList ["w"]⟩, ⟨"b", "c", .ofList ["v", "w"]⟩, ⟨"a", "b", .ofList []⟩, ⟨"b", "a", .ofList ["u"]⟩]

theorem cycles_congr_sharingPairs :
    (∀ a b, Depends sharingCalls a b ↔ Depends sharingPairs a b) ∧
      cycles sharingPairs = [["a", "b", "a"], ["b", "c", "b"]] ∧
        cycles sharingCalls = cycles sharingPairs := by
  have same : ∀ a b, Depends sharingCalls a b ↔ Depends sharingPairs a b := by
    intro a b
    simp only [Depends, sharingCalls, sharingPairs, List.mem_cons, List.not_mem_nil, or_false,
      exists_eq_or_imp, exists_eq_left]
    grind
  have found : cycles sharingPairs = [["a", "b", "a"], ["b", "c", "b"]] := by cbv
  exact ⟨same, found, cycles_congr same⟩

end ServiceMap
