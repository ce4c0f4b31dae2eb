import ServiceMap.Proofs.Accounts
import ServiceMap.Proofs.Declarations
import ServiceMap.Proofs.DotReading
import ServiceMap.Proofs.MermaidReading

/-! The diagrams beside the report on declarations. Read back, the two diagrams show the same
drawing, with every service in the group of its language, and an edge is dashed in it when the report
has the edge as one that is not declared. -/

namespace ServiceMap

open scoped List

/-- Every service stands in one group, that of its language. -/
theorem Registry.groups_perm (r : Registry) :
    (r.groups.flatMap fun g => g.members.map fun name => (g.language, name)) ~
      r.services.map fun s => (s.language, s.name) := by
  have group : ∀ l : Language, ((sortBy compare ((r.services.filter fun s => s.language = l).map
      Service.name)).map fun name => (l, name)) ~
        (r.services.filter fun s => s.language = l).map fun s => (s.language, s.name) := by
    intro l
    refine ((sortBy_perm _ _).map _).trans (List.Perm.of_eq ?_)
    rw [List.map_map]
    refine List.map_congr_left fun s hs => ?_
    simp [of_decide_eq_true (List.mem_filter.1 hs).2]
  have all : (Language.all.flatMap fun l => r.services.filter fun s => s.language = l) ~ r.services :=
    flatMap_filter_perm Service.language (by decide) fun s _ => s.language.mem_all
  have shown : r.groups = (Language.all.map fun l => Group.mk l (sortBy compare
      ((r.services.filter fun s => s.language = l).map Service.name))).filter
        fun g => !(g.members.map fun name => (g.language, name)).isEmpty := by
    simp only [groups, List.isEmpty_map]
  rw [shown, flatMap_filter_not_isEmpty, List.flatMap_map]
  refine (List.Perm.flatMap_left _ fun l _ => group l).trans ?_
  rw [← List.map_flatMap]
  exact all.map _

/-- The status of an edge, as a diagram shows it. -/
def Stroke.ofStatus (s : EdgeStatus) : Stroke :=
  ⟨s.edge.consumer, s.edge.provider, s.edge.apis.size, s.declared⟩

/-- Both diagrams show this drawing, and it shows what the report on declarations says. -/
structure Drawing.Tells (d : Drawing) (r : Registry) (edges : List Edge) : Prop where
  dot : Dot.drawing? (Dot.rendering edges r).text = some d
  mermaid : Mermaid.drawing? r (Mermaid.rendering edges r).text = some d
  /-- The edges between two services as they come, dashed when the report says that they are not
  declared. -/
  strokes_eq : d.strokes = (edges.filter (!·.isLoop)).map fun e =>
    ⟨e.consumer, e.provider, e.apis.size, e ∉ (DeclarationReport.ofEdges edges r).missing⟩
  statuses_perm :
    ((DeclarationReport.ofEdges edges r).perService.flatMap Prod.snd).map Stroke.ofStatus ~ d.strokes
  missing_iff : ∀ p ∈ (DeclarationReport.ofEdges edges r).perService, ∀ s ∈ p.2,
    s.edge ∈ (DeclarationReport.ofEdges edges r).missing ↔ s.declared = false
  /-- Every service is there in the group of its language, -/
  nodes_perm : d.nodes ~ r.services.map fun s => (s.language, s.name)
  /-- and nowhere else. -/
  nodes_nodup : (d.nodes.map Prod.snd).Nodup

section

variable {settings : Settings} {r : Registry}

theorem Drawing.ofEdges_tells (built : Registry.ofSettings settings = .ok r) {edges : List Edge}
    (registered : ∀ e ∈ edges, e.consumer ∈ r.services.map Service.name ∧
      e.provider ∈ r.services.map Service.name) : (Drawing.ofEdges r edges).Tells r edges where
  dot := Dot.drawing?_rendering edges r
  mermaid := Mermaid.drawing?_rendering registered
  strokes_eq := by
    refine List.map_congr_left fun e he => ?_
    obtain ⟨mem, other⟩ := List.mem_filter.1 he
    have missing : e ∈ (DeclarationReport.ofEdges edges r).missing ↔
        r.declares e.consumer e.provider = false := by
      rw [DeclarationReport.mem_missing, and_iff_right mem, and_iff_right (by simpa using other)]
    rw [Stroke.ofEdge]
    cases declared : r.declares e.consumer e.provider <;> simp [missing, declared]
  statuses_perm := by
    refine ((DeclarationReport.statuses_perm edges r).map _).trans (List.Perm.of_eq ?_)
    rw [DeclarationReport.statuses, List.map_map]
    rfl
  missing_iff p hp s hs := by
    have status := (DeclarationReport.statuses_perm edges r).mem_iff.1 (List.mem_flatMap.2 ⟨p, hp, hs⟩)
    obtain ⟨e, he, other, rfl⟩ := DeclarationReport.mem_statuses.1 status
    rw [DeclarationReport.mem_missing, DeclarationReport.status, and_iff_right he, and_iff_right other]
  nodes_perm := r.groups_perm
  nodes_nodup := by
    have names := r.groups_perm.map Prod.snd
    rw [List.map_map] at names
    exact names.nodup_iff.2 (Registry.ofSettings_nodup built)

/-- The edges of a graph lead from services that were scanned to services that are registered. -/
theorem Graph.registered_of_mem_edges {scans : List Scan}
    (registered : ∀ scan ∈ scans, scan.service ∈ r.services.map Service.name) {e : Edge}
    (he : e ∈ (Graph.ofScans r scans).edges) :
    e.consumer ∈ r.services.map Service.name ∧ e.provider ∈ r.services.map Service.name := by
  obtain ⟨a, ha⟩ := Draft.exists_api he
  constructor
  · obtain ⟨-, call, hcall, -⟩ := Draft.mem_edges.1 ⟨e, he, rfl, rfl, ha⟩
    rw [Draft.ofScans_eq_run, Draft.run_calls, List.flatMap_map] at hcall
    obtain ⟨scan, hscan, made⟩ := List.mem_flatMap.1 hcall
    obtain ⟨c, -, same⟩ := List.mem_map.1 made
    have consumer : scan.service = e.consumer := congrArg Outgoing.consumer same
    rw [← consumer]
    exact registered scan hscan
  · obtain ⟨-, s, hs, name, -⟩ := Draft.edge_provided he ha
    rw [← name]
    exact List.mem_map_of_mem hs

end

/-- Two services, one with quotes and a line feed in its name and a dependency on the other. -/
def quotedSettings : Settings where
  projectRoot := ⟨"/"⟩
  configPath := ⟨"/c"⟩
  checks := .all
  exclude := []
  includeTests := false
  services := [⟨"the \"b\"\nside", "go", "b", [], [], [], [], [.named "a"]⟩,
    ⟨"a", "py", "a", [], [], [], [], []⟩]

def quotedRegistry : Registry where
  projectRoot := ⟨"/"⟩
  services := [⟨"the \"b\"\nside", .go, ⟨"/b"⟩, ⟨"b"⟩, ⟨none, none, false⟩, [], [], [⟨"a", .required⟩]⟩,
    ⟨"a", .python, ⟨"/a"⟩, ⟨"a"⟩, ⟨none, none, false⟩, [], [], []⟩]

def quotedEdges : List Edge :=
  [⟨"the \"b\"\nside", "a", ⟨["x"], by simp⟩⟩, ⟨"a", "a", ⟨["x"], by simp⟩⟩,
    ⟨"a", "the \"b\"\nside", ⟨["x", "y"], by decide⟩⟩]

end ServiceMap
