import Mathlib.Logic.Relation
import ServiceMap.Graph.Digraph
import ServiceMap.Proofs.Sorting

/-! What the bare graph of a list of edges holds: its nodes are the ends of the edges from one
service to another, and a node leads to another exactly when such an edge does. -/

namespace ServiceMap

/-- An edge leads from `a` to another service `b`. -/
def Depends (edges : List Edge) (a b : String) : Prop :=
  a ≠ b ∧ ∃ e ∈ edges, e.consumer = a ∧ e.provider = b

instance (edges : List Edge) (a b : String) : Decidable (Depends edges a b) :=
  inferInstanceAs (Decidable (a ≠ b ∧ ∃ e ∈ edges, e.consumer = a ∧ e.provider = b))

theorem depends_iff {edges : List Edge} {a b : String} : Depends edges a b ↔
    ∃ e ∈ edges, e.isLoop = false ∧ e.consumer = a ∧ e.provider = b := by
  constructor
  · rintro ⟨ne, e, he, rfl, rfl⟩
    exact ⟨e, he, by simpa [Edge.isLoop] using ne, rfl, rfl⟩
  · rintro ⟨e, he, other, rfl, rfl⟩
    exact ⟨by simpa [Edge.isLoop] using other, e, he, rfl, rfl⟩

/-- No way along `r` comes back to where it started. -/
def Acyclic (r : String → String → Prop) : Prop := ∀ a, ¬ Relation.TransGen r a a

namespace Digraph

def Leads (g : Digraph) (a b : String) : Prop := b ∈ g.successors a

/-- A graph as the search needs it. -/
structure Proper (g : Digraph) : Prop where
  nodes_nodup : g.nodes.Nodup
  successors_nodup : ∀ a, (g.successors a).Nodup
  leads_mem : ∀ {a b}, g.Leads a b → a ∈ g.nodes ∧ b ∈ g.nodes
  leads_ne : ∀ {a b}, g.Leads a b → a ≠ b

theorem mem_kept {edges : List Edge} {e : Edge} (h : e ∈ kept edges) :
    e ∈ edges ∧ e.consumer ≠ e.provider := by
  have := mem_sortBy.1 (mem_of_mem_firsts h)
  simpa [Edge.isLoop] using this

theorem exists_mem_kept {edges : List Edge} {e : Edge} (h : e ∈ edges)
    (other : e.consumer ≠ e.provider) :
    ∃ k ∈ kept edges, k.consumer = e.consumer ∧ k.provider = e.provider := by
  have sorted : e ∈ sortBy compare (edges.filter (!·.isLoop)) :=
    mem_sortBy.2 (by simp [h, Edge.isLoop, other])
  obtain ⟨k, hk, like⟩ : ∃ k ∈ kept edges, k = e ∨ decide (Edge.pairOrder k e = .eq) = true :=
    exists_mem_firsts sorted
  rcases like with rfl | same
  · exact ⟨k, hk, rfl, rfl⟩
  · exact ⟨k, hk, Edge.pairOrder_eq.1 (of_decide_eq_true same)⟩

theorem kept_pairwise (edges : List Edge) :
    (kept edges).Pairwise fun a b => Edge.pairOrder a b = .lt := by
  refine firsts_pairwise ((sortBy_pairwise compare _).imp fun {a b} le => ?_)
  -- the whole order looks at the two services first
  have le : ((Edge.pairOrder a b).then (compareOn Edge.apis a b)).isLE := le
  cases h : Edge.pairOrder a b <;> simp_all

theorem mem_successors {g : Digraph} {a b : String} :
    b ∈ g.successors a ↔ ∃ arc ∈ g.arcs, arc.source = a ∧ arc.target = b := by
  simp [successors, and_assoc]

theorem leads_ofEdges {edges : List Edge} {a b : String} :
    (ofEdges edges).Leads a b ↔ Depends edges a b := by
  simp only [Leads, mem_successors, ofEdges, List.mem_map]
  constructor
  · rintro ⟨_, ⟨e, he, rfl⟩, rfl, rfl⟩
    exact ⟨(mem_kept he).2, e, (mem_kept he).1, rfl, rfl⟩
  · rintro ⟨ne, e, he, rfl, rfl⟩
    obtain ⟨k, hk, consumer, provider⟩ := exists_mem_kept he ne
    exact ⟨_, ⟨k, hk, rfl⟩, consumer, provider⟩

theorem leads_ofEdges_eq (edges : List Edge) : (ofEdges edges).Leads = Depends edges := by
  ext
  exact leads_ofEdges

theorem mem_nodes_ofEdges {edges : List Edge} {a : String} :
    a ∈ (ofEdges edges).nodes ↔ ∃ b, Depends edges a b ∨ Depends edges b a := by
  simp only [ofEdges, mem_ascending, List.mem_flatMap, List.mem_cons, List.not_mem_nil, or_false]
  constructor
  · rintro ⟨e, he, rfl | rfl⟩
    · exact ⟨e.provider, .inl ⟨(mem_kept he).2, e, (mem_kept he).1, rfl, rfl⟩⟩
    · exact ⟨e.consumer, .inr ⟨(mem_kept he).2, e, (mem_kept he).1, rfl, rfl⟩⟩
  · rintro ⟨b, ⟨ne, e, he, rfl, rfl⟩ | ⟨ne, e, he, rfl, rfl⟩⟩
    · obtain ⟨k, hk, consumer, -⟩ := exists_mem_kept he ne
      exact ⟨k, hk, .inl consumer.symm⟩
    · obtain ⟨k, hk, -, provider⟩ := exists_mem_kept he ne
      exact ⟨k, hk, .inr provider.symm⟩

theorem successors_ofEdges_pairwise (edges : List Edge) (a : String) :
    ((ofEdges edges).successors a).Pairwise fun b c => compare b c = .lt := by
  simp only [successors, ofEdges, List.pairwise_map, List.pairwise_filter, decide_eq_true_eq]
  refine (kept_pairwise edges).imp fun {e f} lt he hf => ?_
  have lt : (compare e.consumer f.consumer).then (compare e.provider f.provider) = .lt := lt
  simpa [he, hf] using lt

theorem ofEdges_proper (edges : List Edge) : (ofEdges edges).Proper where
  nodes_nodup := nodup_of_ascending (ascending_pairwise compare _)
  successors_nodup a := nodup_of_ascending (successors_ofEdges_pairwise edges a)
  leads_mem h :=
    have h := leads_ofEdges.1 h
    ⟨mem_nodes_ofEdges.2 ⟨_, .inl h⟩, mem_nodes_ofEdges.2 ⟨_, .inr h⟩⟩
  leads_ne h := (leads_ofEdges.1 h).1

end Digraph
end ServiceMap
