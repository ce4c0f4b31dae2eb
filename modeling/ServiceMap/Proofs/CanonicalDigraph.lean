import Mathlib
import ServiceMap.Proofs.Digraph

/-! The bare graph of a list of edges is a canonical form of it. What it holds is told by the edges from
one service to another, each taken once and in no order, and of the edges between the same two services by
the one with the least set of APIs. No other graph holds just that. -/

namespace ServiceMap

instance : Std.LawfulEqOrd NameSet where
  eq_of_compare {s t} h := by
    cases s
    cases t
    congr
    exact Std.LawfulEqOrd.eq_of_compare (α := List String) h

/-- By the two ends. -/
def Arc.order : Arc → Arc → Ordering := compareLex (compareOn source) (compareOn target)

instance : Std.TransCmp Arc.order :=
  inferInstanceAs (Std.TransCmp (compareLex (compareOn Arc.source) (compareOn Arc.target)))

namespace Edge

variable {e f : Edge} {edges more : List Edge}

def arc (e : Edge) : Arc := ⟨e.consumer, e.provider, e.apis.size⟩

/-- The edge leads to another service, and of all edges between the same two it has the least set of
APIs. -/
structure LeastOf (e : Edge) (edges : List Edge) : Prop where
  mem : e ∈ edges
  crosses : e.isLoop = false
  least : ∀ f ∈ edges, pairOrder e f = .eq → (compare e.apis f.apis).isLE

theorem isLoop_eq_of_pairOrder (same : pairOrder e f = .eq) : e.isLoop = f.isLoop := by
  obtain ⟨consumer, provider⟩ := pairOrder_eq.1 same
  rw [isLoop, isLoop, consumer, provider]

theorem LeastOf.unique (he : e.LeastOf edges) (hf : f.LeastOf edges) (same : pairOrder e f = .eq) :
    e = f := by
  obtain ⟨consumer, provider⟩ := pairOrder_eq.1 same
  have le : (compare e.apis f.apis).isLE := he.least f hf.mem same
  have ge : (compare f.apis e.apis).isLE := hf.least e he.mem (Std.OrientedCmp.eq_symm same)
  have apis : e.apis = f.apis := Std.LawfulEqOrd.eq_of_compare (Std.OrientedCmp.isLE_antisymm le ge)
  cases e
  cases f
  simp_all

theorem LeastOf.congr (same : ∀ e, e.isLoop = false → (e ∈ edges ↔ e ∈ more))
    (h : e.LeastOf edges) : e.LeastOf more where
  mem := (same e h.crosses).1 h.mem
  crosses := h.crosses
  least f hf pair := by
    have crosses : f.isLoop = false := by rw [← isLoop_eq_of_pairOrder pair, h.crosses]
    exact h.least f ((same f crosses).2 hf) pair

end Edge

open Edge

namespace Digraph

variable {edges more : List Edge} {e k : Edge} {g h : Digraph}

/-- What is kept of the edges between two services comes before all of them in the sorted list, and so it
is the least of them. -/
theorem leastOf_of_mem_kept (hk : k ∈ kept edges) : k.LeastOf edges where
  mem := (mem_kept hk).1
  crosses := by simpa [isLoop] using (mem_kept hk).2
  least f hf pair := by
    have crosses : f.isLoop = false := by
      rw [← isLoop_eq_of_pairOrder pair]
      simpa [isLoop] using (mem_kept hk).2
    have sorted : f ∈ sortBy compare (edges.filter (!·.isLoop)) := mem_sortBy.2 (by simp [hf, crosses])
    obtain ⟨b, hb, like⟩ : ∃ b ∈ kept edges,
        b = f ∨ decide (pairOrder b f = .eq) = true ∧ (compare b f).isLE :=
      exists_before_mem_firsts (sortBy_pairwise compare _) sorted
    rcases like with rfl | ⟨same, before⟩
    · obtain rfl : k = b := eq_of_level (kept_pairwise edges) hk hb pair
      simp [Std.ReflCmp.compare_self]
    · have same : pairOrder b f = .eq := of_decide_eq_true same
      have level : pairOrder k b = .eq := Std.TransCmp.eq_trans pair (Std.OrientedCmp.eq_symm same)
      obtain rfl : k = b := eq_of_level (kept_pairwise edges) hk hb level
      have before : ((pairOrder k f).then (compareOn apis k f)).isLE := before
      rwa [same] at before

theorem mem_kept_iff : k ∈ kept edges ↔ k.LeastOf edges := by
  refine ⟨leastOf_of_mem_kept, fun least => ?_⟩
  obtain ⟨b, hb, consumer, provider⟩ := exists_mem_kept least.mem (by simpa [isLoop] using least.crosses)
  have same : pairOrder b k = .eq := pairOrder_eq.2 ⟨consumer, provider⟩
  rwa [← (leastOf_of_mem_kept hb).unique least same]

/-- What a graph holds that is the canonical form of a list of edges. -/
structure Canonical (g : Digraph) (edges : List Edge) : Prop where
  nodes_ascending : g.nodes.Pairwise fun a b => compare a b = .lt
  mem_nodes : ∀ a, a ∈ g.nodes ↔ ∃ e ∈ edges, e.isLoop = false ∧ (e.consumer = a ∨ e.provider = a)
  arcs_ascending : g.arcs.Pairwise fun a b => Arc.order a b = .lt
  mem_arcs : ∀ a, a ∈ g.arcs ↔ ∃ e : Edge, e.LeastOf edges ∧ e.arc = a

theorem canonical_ofEdges (edges : List Edge) : (ofEdges edges).Canonical edges where
  nodes_ascending := ascending_pairwise compare _
  mem_nodes a := by
    rw [mem_nodes_ofEdges]
    simp only [depends_iff]
    constructor
    · rintro ⟨_, ⟨e, he, crosses, rfl, -⟩ | ⟨e, he, crosses, -, rfl⟩⟩
      · exact ⟨e, he, crosses, .inl rfl⟩
      · exact ⟨e, he, crosses, .inr rfl⟩
    · rintro ⟨e, he, crosses, rfl | rfl⟩
      · exact ⟨_, .inl ⟨e, he, crosses, rfl, rfl⟩⟩
      · exact ⟨_, .inr ⟨e, he, crosses, rfl, rfl⟩⟩
  arcs_ascending := List.pairwise_map.2 (kept_pairwise edges)
  mem_arcs a := by
    change a ∈ (kept edges).map arc ↔ _
    simp only [List.mem_map, mem_kept_iff]

theorem Canonical.unique (hg : g.Canonical edges) (hh : h.Canonical edges) : g = h := by
  have nodes : g.nodes = h.nodes :=
    eq_of_ascending hg.nodes_ascending hh.nodes_ascending fun a => by rw [hg.mem_nodes, hh.mem_nodes]
  have arcs : g.arcs = h.arcs :=
    eq_of_ascending hg.arcs_ascending hh.arcs_ascending fun a => by rw [hg.mem_arcs, hh.mem_arcs]
  cases g
  cases h
  simp_all

theorem Canonical.congr (same : ∀ e, e.isLoop = false → (e ∈ edges ↔ e ∈ more))
    (h : g.Canonical edges) : g.Canonical more where
  nodes_ascending := h.nodes_ascending
  mem_nodes a := by
    rw [h.mem_nodes]
    exact exists_congr fun e => ⟨fun ⟨he, crosses, ends⟩ => ⟨(same e crosses).1 he, crosses, ends⟩,
      fun ⟨he, crosses, ends⟩ => ⟨(same e crosses).2 he, crosses, ends⟩⟩
  arcs_ascending := h.arcs_ascending
  mem_arcs a := by
    rw [h.mem_arcs]
    exact exists_congr fun e => and_congr_left fun _ =>
      ⟨.congr same, .congr fun e crosses => (same e crosses).symm⟩

/-- Each node has its number and nothing else has one, and the arcs lead from number to number as they
lead from name to name. -/
structure Numbered (g : Digraph) : Prop where
  index : ∀ a i, g.index.lookup a = some i ↔ g.nodes[i]? = some a
  arcs : ∃ arcs, g.numbered? = some arcs ∧
    arcs.Forall₂ (fun (i, j, w) a =>
      g.nodes[i]? = some a.source ∧ g.nodes[j]? = some a.target ∧ w = a.weight) g.arcs

theorem lookup_eq_some_iff_mem {α β : Type} [BEq α] [LawfulBEq α] {l : List (α × β)} {a : α} {b : β}
    (nodup : (l.map Prod.fst).Nodup) : l.lookup a = some b ↔ (a, b) ∈ l := by
  constructor
  · intro found
    obtain ⟨before, after, rfl, -⟩ := List.lookup_eq_some_iff.1 found
    simp
  · intro mem
    obtain ⟨before, after, rfl⟩ := List.append_of_mem mem
    refine List.lookup_eq_some_iff.2 ⟨before, after, rfl, fun p hp => ?_⟩
    rw [List.map_append, List.nodup_append] at nodup
    have apart : p.1 ≠ a := nodup.2.2 p.1 (List.mem_map_of_mem hp) a (by simp)
    simpa using apart.symm

theorem mapM_forall₂ {α β : Type} {f : α → Option β} {r : β → α → Prop} {l : List α}
    (h : ∀ a ∈ l, ∃ b, f a = some b ∧ r b a) : ∃ bs, l.mapM f = some bs ∧ bs.Forall₂ r l := by
  induction l with
  | nil => exact ⟨[], rfl, .nil⟩
  | cons a l ih =>
    obtain ⟨first, rest⟩ := List.forall_mem_cons.1 h
    obtain ⟨b, made, like⟩ := first
    obtain ⟨bs, others, alike⟩ := ih rest
    exact ⟨b :: bs, by simp [made, others], .cons like alike⟩

/-- The ends of the arcs are nodes, so none of them is missed. -/
theorem ofEdges_numbered (edges : List Edge) : (ofEdges edges).Numbered := by
  have proper := ofEdges_proper edges
  have index : ∀ a i, (ofEdges edges).index.lookup a = some i ↔ (ofEdges edges).nodes[i]? = some a := by
    intro a i
    rw [Digraph.index, lookup_eq_some_iff_mem (by simpa using proper.nodes_nodup),
      List.mk_mem_zipIdx_iff_getElem?]
  have number : ∀ a ∈ (ofEdges edges).nodes, ∃ i, (ofEdges edges).index.lookup a = some i ∧
      (ofEdges edges).nodes[i]? = some a := by
    intro a ha
    obtain ⟨i, there⟩ := List.mem_iff_getElem?.1 ha
    exact ⟨i, (index a i).2 there, there⟩
  refine ⟨index, mapM_forall₂ fun a ha => ?_⟩
  have leads : (ofEdges edges).Leads a.source a.target := mem_successors.2 ⟨a, ha, rfl, rfl⟩
  obtain ⟨i, source, iSource⟩ := number a.source (proper.leads_mem leads).1
  obtain ⟨j, target, jTarget⟩ := number a.target (proper.leads_mem leads).2
  exact ⟨(i, j, a.weight), by simp [source, target], iSource, jTarget, rfl⟩

/-- The graph of a list of edges is the one canonical form of it, and no number of a node is missed. There
is one arc for each two services with an edge between them, and the only such edge gives the arc its own
number of APIs. The order of the edges, edges given again and edges from a service to itself make no
difference. -/
theorem ofEdges_canonical (edges : List Edge) :
    (∀ g, g.Canonical edges ↔ g = ofEdges edges) ∧ (ofEdges edges).Numbered ∧
      (∀ e ∈ edges, e.isLoop = false →
        (∃ a ∈ (ofEdges edges).arcs, a.source = e.consumer ∧ a.target = e.provider) ∧
          ((∀ f ∈ edges, pairOrder e f = .eq → f = e) → e.arc ∈ (ofEdges edges).arcs)) ∧
        ∀ more, (∀ e, e.isLoop = false → (e ∈ edges ↔ e ∈ more)) → ofEdges more = ofEdges edges := by
  have canonical := canonical_ofEdges edges
  refine ⟨fun g => ⟨fun h => h.unique canonical, fun same => same ▸ canonical⟩, ofEdges_numbered edges,
    fun e he crosses => ⟨?_, fun only => ?_⟩, fun more same => ?_⟩
  · obtain ⟨k, hk, consumer, provider⟩ := exists_mem_kept he (by simpa [isLoop] using crosses)
    exact ⟨k.arc, (canonical.mem_arcs _).2 ⟨k, mem_kept_iff.1 hk, rfl⟩, consumer, provider⟩
  · refine (canonical.mem_arcs _).2 ⟨e, ⟨he, crosses, fun f hf pair => ?_⟩, rfl⟩
    simp [only f hf pair]
  · exact (canonical_ofEdges more).unique (canonical.congr same)

/-- Two edges between the same services, of which the one with more APIs has the lesser set. -/
def twofoldCalls : List Edge :=
  [⟨"b", "a", .ofList ["jobs"]⟩, ⟨"a", "a", .ofList ["self"]⟩, ⟨"a", "b", .ofList ["x", "y"]⟩,
    ⟨"a", "b", .ofList ["x", "w", "z"]⟩]

/-- The same in another order, one of them given again, and a loop more. -/
def shuffledCalls : List Edge :=
  [⟨"c", "c", .ofList []⟩, ⟨"a", "b", .ofList ["x", "w", "z"]⟩, ⟨"a", "b", .ofList ["x", "y"]⟩,
    ⟨"b", "a", .ofList ["jobs"]⟩, ⟨"a", "b", .ofList ["x", "y"]⟩]

theorem ofEdges_canonical_twofold :
    let graph : Digraph := ⟨["a", "b"], [⟨"a", "b", 3⟩, ⟨"b", "a", 1⟩]⟩
    let jobs : Edge := ⟨"b", "a", .ofList ["jobs"]⟩
    ofEdges twofoldCalls = graph ∧ graph.Canonical twofoldCalls ∧ graph.Numbered ∧
      (∀ f ∈ twofoldCalls, pairOrder jobs f = .eq → f = jobs) ∧ jobs.arc ∈ graph.arcs ∧
        (∀ e, e.isLoop = false → (e ∈ twofoldCalls ↔ e ∈ shuffledCalls)) ∧
          ofEdges shuffledCalls = graph := by
  intro graph jobs
  have made : ofEdges twofoldCalls = graph := by cbv
  obtain ⟨canonical, numbered, arcs, restated⟩ := ofEdges_canonical twofoldCalls
  have only : ∀ f ∈ twofoldCalls, pairOrder jobs f = .eq → f = jobs := by
    simp [twofoldCalls, pairOrder_eq, jobs]
  have listed : jobs ∈ twofoldCalls := by simp [twofoldCalls, jobs]
  have own : jobs.arc ∈ graph.arcs := made ▸ (arcs jobs listed rfl).2 only
  have same : ∀ e, e.isLoop = false → (e ∈ twofoldCalls ↔ e ∈ shuffledCalls) := by
    intro e crosses
    have noLoop : ∀ name apis, e ≠ ⟨name, name, apis⟩ := by
      rintro name apis rfl
      simp [isLoop] at crosses
    simp only [twofoldCalls, shuffledCalls, List.mem_cons, List.not_mem_nil, or_false, noLoop, false_or]
    tauto
  exact ⟨made, (canonical graph).2 made.symm, made ▸ numbered, only, own, same,
    (restated _ same).trans made⟩

end Digraph
end ServiceMap
