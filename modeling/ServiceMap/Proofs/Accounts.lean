import Mathlib
import ServiceMap.Proofs.Drafts
import ServiceMap.Proofs.Registry
import ServiceMap.Proofs.Resolution

/-! A graph accounts for the calls that went into it: its edges hold what those calls reach and
nothing else, and every call is in one place. -/

namespace ServiceMap

open scoped List

/-- What a graph says of the calls that it was made of. -/
structure Graph.Accounts (g : Graph) (r : Registry) (calls : List Outgoing) : Prop where
  edges_ascending : g.edges.Pairwise fun e f => Edge.pairOrder e f = .lt
  no_loop : ∀ e ∈ g.edges, e.consumer ≠ e.provider
  apis_ne_nil : ∀ e ∈ g.edges, e.apis.toList ≠ []
  provided : ∀ e ∈ g.edges, ∃ s ∈ r.services,
    s.name = e.provider ∧ ∀ a ∈ e.apis.toList, a ∈ s.provides
  mem_edges : ∀ c p a, (∃ e ∈ g.edges, e.consumer = c ∧ e.provider = p ∧ a ∈ e.apis.toList) ↔
    p ≠ c ∧ ∃ call, ⟨c, call⟩ ∈ calls ∧ r.resolve? call.target = some ⟨p, a⟩
  selfCalls_perm : g.selfCalls ~ (calls.filter (Outgoing.returns r)).map (·.call.resolved r)
  unresolved_perm : g.unresolved ~ (calls.filter (Outgoing.fails r)).map (·.call.resolved r)
  /-- Nothing is lost, and nothing is in two places. -/
  whole : (calls.filter (Outgoing.crosses r)).map (·.call.resolved r) ++
    (g.selfCalls ++ g.unresolved) ~ calls.map (·.call.resolved r)

namespace Draft

variable {d : Draft} {r : Registry}

theorem mem_edges {c p a : String} :
    (∃ e ∈ (d.graph r).edges, e.consumer = c ∧ e.provider = p ∧ a ∈ e.apis.toList) ↔
      p ≠ c ∧ ∃ call, ⟨c, call⟩ ∈ d.calls ∧ r.resolve? call.target = some ⟨p, a⟩ := by
  rw [graph_edges, Edge.mem_apis_ofLinks, resolved, List.mem_filterMap]
  simp only [List.mem_map, exists_exists_and_eq_and, Outgoing.link?_resolved]
  constructor
  · rintro ⟨o, ho, other, rfl, reached⟩
    exact ⟨other, o.call, ho, reached⟩
  · rintro ⟨other, call, hcall, reached⟩
    exact ⟨_, hcall, other, rfl, reached⟩

theorem exists_api {e : Edge} (h : e ∈ (d.graph r).edges) : ∃ a, a ∈ e.apis.toList := by
  rw [graph_edges] at h
  obtain ⟨a, ha, -⟩ := Edge.exists_link h
  exact ⟨a, ha⟩

/-- An edge leads to another service, and what is in it is what that one provides. -/
theorem edge_provided {e : Edge} (h : e ∈ (d.graph r).edges) {a : String} (ha : a ∈ e.apis.toList) :
    e.consumer ≠ e.provider ∧ ∃ s ∈ r.services, s.name = e.provider ∧ a ∈ s.provides := by
  obtain ⟨other, call, -, reached⟩ := mem_edges.1 ⟨e, h, rfl, rfl, ha⟩
  exact ⟨other.symm, Registry.provided_of_resolve? reached⟩

theorem graph_accounts {settings : Settings} (built : Registry.ofSettings settings = .ok r)
    (d : Draft) : (d.graph r).Accounts r d.calls where
  edges_ascending := EdgeTable.edges_pairwise _
  no_loop e he := by
    obtain ⟨a, ha⟩ := exists_api he
    exact (edge_provided he ha).1
  apis_ne_nil e he := by
    obtain ⟨a, ha⟩ := exists_api he
    exact List.ne_nil_of_mem ha
  provided e he := by
    obtain ⟨a, ha⟩ := exists_api he
    obtain ⟨-, s, hs, name, -⟩ := edge_provided he ha
    refine ⟨s, hs, name, fun b hb => ?_⟩
    obtain ⟨-, t, ht, same, lists⟩ := edge_provided he hb
    rwa [Registry.eq_of_name_eq built hs ht (name.trans same.symm)]
  mem_edges _ _ _ := mem_edges
  selfCalls_perm := by
    rw [graph_selfCalls]
    exact sortBy_perm _ _
  unresolved_perm := by
    rw [graph_unresolved]
    exact sortBy_perm _ _
  whole := by
    rw [graph_selfCalls, graph_unresolved]
    refine (((sortBy_perm _ _).append (sortBy_perm _ _)).append_left _).trans ?_
    have parts := (Outgoing.partition r d.calls).map fun o => o.call.resolved r
    simpa only [Outgoing.picked, List.map_append] using parts

/-- However the calls of a run came in, the graph accounts for all of them. -/
theorem run_accounts {settings : Settings} {r : Registry}
    (built : Registry.ofSettings settings = .ok r) (steps : List Step) :
    ((run steps).graph r).Accounts r (steps.flatMap Step.calls) := by
  rw [← run_calls]
  exact graph_accounts built (run steps)

end Draft

/-- Two services that provide one API each. -/
def pairSettings : Settings where
  projectRoot := ⟨"/"⟩
  configPath := ⟨"/c"⟩
  checks := .all
  exclude := []
  includeTests := false
  services := [⟨"a", "go", "a", [], [], ["x"], [], []⟩, ⟨"b", "py", "b", [], [], ["y"], [], []⟩]

def pairRegistry : Registry where
  projectRoot := ⟨"/"⟩
  services := [⟨"a", .go, ⟨"/a"⟩, ⟨"a"⟩, ⟨none, none, false⟩, ["x"], [], []⟩,
    ⟨"b", .python, ⟨"/b"⟩, ⟨"b"⟩, ⟨none, none, false⟩, ["y"], [], []⟩]

/-- A call from one service to the other, and a scan of the other with a call to itself and one that
reaches nothing. -/
def pairSteps : List Draft.Step :=
  [.call ⟨"a", ⟨⟨"a.go"⟩, 1, "/y", "r", none⟩⟩,
    .scan { service := "b", calls := [⟨⟨"b.py"⟩, 3, "/y", "r", none⟩, ⟨⟨"b.py"⟩, 2, "/z", "r", none⟩] }]

theorem Draft.run_accounts_pair :
    Registry.ofSettings pairSettings = .ok pairRegistry ∧
      ((run pairSteps).graph pairRegistry).edges = [⟨"a", "b", .ofList ["y"]⟩] ∧
        ((run pairSteps).graph pairRegistry).Accounts pairRegistry (pairSteps.flatMap Step.calls) := by
  have built : Registry.ofSettings pairSettings = .ok pairRegistry := by cbv
  have edges : ((run pairSteps).graph pairRegistry).edges = [⟨"a", "b", .ofList ["y"]⟩] := by cbv
  exact ⟨built, edges, run_accounts built pairSteps⟩

end ServiceMap
