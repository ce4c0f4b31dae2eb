import Mathlib
import ServiceMap.Audit.Declarations
import ServiceMap.Proofs.Digraph
import ServiceMap.Proofs.Registry

/-! The report on declarations. It has the status of every edge from one service to another once, under
the service that the edge leads from, and tells apart what is declared, what is missing and what is
unused. Where no two edges lead from one service to the same other one, their order does not matter. -/

namespace ServiceMap

open scoped List

variable {settings : Settings} {r : Registry} {edges more : List Edge}

/-- A dependency is declared when the service that has it is registered and lists it. -/
theorem Registry.declares_iff (built : ofSettings settings = .ok r) {consumer provider : String} :
    r.declares consumer provider = true ↔
      ∃ s ∈ r.services, s.name = consumer ∧ ∃ d ∈ s.dependencies, d.service = provider := by
  unfold declares
  constructor
  · intro h
    obtain ⟨s, found, listed⟩ := (Option.any_eq_true _ _).1 h
    obtain ⟨d, hd, service⟩ := List.any_eq_true.1 listed
    have name : s.name = consumer := by simpa using List.find?_some found
    exact ⟨s, List.mem_of_find?_eq_some found, name, d, hd, of_decide_eq_true service⟩
  · rintro ⟨s, hs, rfl, d, hd, rfl⟩
    rw [find?_of_mem built hs]
    exact List.any_eq_true.2 ⟨d, hd, decide_eq_true rfl⟩

namespace DeclarationReport

/-- By service, then by dependency. -/
def unusedOrder : UnusedDeclaration → UnusedDeclaration → Ordering :=
  compareLex (compareOn UnusedDeclaration.service) (compareOn UnusedDeclaration.dependency)

instance : Std.TransCmp unusedOrder :=
  inferInstanceAs (Std.TransCmp
    (compareLex (compareOn UnusedDeclaration.service) (compareOn UnusedDeclaration.dependency)))

/-- The status of every edge from one service to another, in the order in which they come. -/
def statuses (edges : List Edge) (r : Registry) : List EdgeStatus :=
  (edges.filter (!·.isLoop)).map (status r)

theorem mem_statuses {s : EdgeStatus} :
    s ∈ statuses edges r ↔ ∃ e ∈ edges, e.isLoop = false ∧ status r e = s := by
  simp [statuses, and_assoc]

/-- The services that are registered and those that an edge leads from. -/
def names (edges : List Edge) (r : Registry) : List String :=
  ascending compare (r.services.map Service.name ++ (statuses edges r).map fun s => s.edge.consumer)

theorem perService_ofEdges (edges : List Edge) (r : Registry) : (ofEdges edges r).perService =
    (names edges r).map fun name => (name, outgoing name (statuses edges r)) := rfl

theorem missing_ofEdges (edges : List Edge) (r : Registry) : (ofEdges edges r).missing =
    sortBy Edge.pairOrder (((statuses edges r).filter (!·.declared)).map EdgeStatus.edge) := rfl

theorem unused_ofEdges (edges : List Edge) (r : Registry) : (ofEdges edges r).unused =
    sortBy unusedOrder ((declarations r).filter fun u =>
      !isUsed (statuses edges r) u.service u.dependency) := rfl

theorem mem_names {a : String} : a ∈ names edges r ↔
    (∃ s ∈ r.services, s.name = a) ∨ ∃ e ∈ edges, e.isLoop = false ∧ e.consumer = a := by
  rw [names, mem_ascending, List.mem_append, List.mem_map, List.mem_map]
  constructor
  · rintro (registered | ⟨s, hs, rfl⟩)
    · exact .inl registered
    · obtain ⟨e, he, other, rfl⟩ := mem_statuses.1 hs
      exact .inr ⟨e, he, other, rfl⟩
  · rintro (registered | ⟨e, he, other, rfl⟩)
    · exact .inl registered
    · exact .inr ⟨_, mem_statuses.2 ⟨e, he, other, rfl⟩, rfl⟩

/-- The report has the status of every edge once, with the service that it leads from. -/
theorem statuses_perm (edges : List Edge) (r : Registry) :
    (ofEdges edges r).perService.flatMap Prod.snd ~ statuses edges r := by
  rw [perService_ofEdges, List.flatMap_map]
  have sorted : ∀ name, outgoing name (statuses edges r) ~
      (statuses edges r).filter fun s => s.edge.consumer = name := fun _ => sortBy_perm _ _
  refine (List.Perm.flatMap_left _ fun name _ => sorted name).trans ?_
  refine flatMap_filter_perm (fun s : EdgeStatus => s.edge.consumer)
    (nodup_of_ascending (ascending_pairwise compare _)) fun s hs => mem_ascending.2 ?_
  exact List.mem_append_right _ (List.mem_map_of_mem hs)

theorem mem_missing {e : Edge} : e ∈ (ofEdges edges r).missing ↔
    e ∈ edges ∧ e.isLoop = false ∧ r.declares e.consumer e.provider = false := by
  simp only [missing_ofEdges, mem_sortBy, List.mem_map, List.mem_filter, mem_statuses, Bool.not_eq_true']
  constructor
  · rintro ⟨s, ⟨⟨e, he, other, rfl⟩, undeclared⟩, rfl⟩
    exact ⟨he, other, undeclared⟩
  · rintro ⟨he, other, undeclared⟩
    exact ⟨status r e, ⟨⟨e, he, other, rfl⟩, undeclared⟩, rfl⟩

/-- A declared dependency is used when some edge leads from the one service to the other. -/
theorem isUsed_iff (edges : List Edge) {service dependency : String} (declared : r.declares service dependency = true) :
    isUsed (statuses edges r) service dependency = true ↔ Depends edges service dependency := by
  rw [depends_iff]
  simp only [isUsed, List.any_eq_true, mem_statuses, Bool.and_eq_true, decide_eq_true_eq]
  constructor
  · rintro ⟨s, ⟨e, he, other, rfl⟩, ⟨-, consumer⟩, provider⟩
    exact ⟨e, he, other, consumer, provider⟩
  · rintro ⟨e, he, other, rfl, rfl⟩
    exact ⟨status r e, ⟨e, he, other, rfl⟩, ⟨declared, rfl⟩, rfl⟩

theorem declares_of_mem_declarations (built : Registry.ofSettings settings = .ok r)
    {u : UnusedDeclaration} (hu : u ∈ declarations r) : r.declares u.service u.dependency = true := by
  obtain ⟨s, hs, hu⟩ := List.mem_flatMap.1 hu
  obtain ⟨d, hd, rfl⟩ := List.mem_map.1 hu
  exact (Registry.declares_iff built).2 ⟨s, hs, rfl, d, hd, rfl⟩

/-- What a report says of the edges beside a registry. -/
structure Classifies (d : DeclarationReport) (r : Registry) (edges : List Edge) : Prop where
  keys_ascending : (d.perService.map Prod.fst).Pairwise fun a b => compare a b = .lt
  /-- The services are those registered, and those that an edge leads from. -/
  mem_keys : ∀ a, a ∈ d.perService.map Prod.fst ↔
    (∃ s ∈ r.services, s.name = a) ∨ ∃ e ∈ edges, e.isLoop = false ∧ e.consumer = a
  /-- Every edge is there once, -/
  edges_perm : (d.perService.flatMap Prod.snd).map EdgeStatus.edge ~ edges.filter (!·.isLoop)
  /-- under the service that it leads from. -/
  own : ∀ p ∈ d.perService, ∀ s ∈ p.2, s.edge.consumer = p.1
  lists_ascending : ∀ p ∈ d.perService,
    p.2.Pairwise fun s t => (compare s.edge.provider t.edge.provider).isLE
  declared_iff : ∀ p ∈ d.perService, ∀ s ∈ p.2, s.declared = true ↔
    ∃ t ∈ r.services, t.name = s.edge.consumer ∧ ∃ n ∈ t.dependencies, n.service = s.edge.provider
  missing_perm : d.missing ~
    ((d.perService.flatMap Prod.snd).filter (!·.declared)).map EdgeStatus.edge
  missing_ascending : d.missing.Pairwise fun e f => (Edge.pairOrder e f).isLE
  /-- What is unused are the dependencies that are declared and along which no edge leads. -/
  unused_perm : d.unused ~ (r.services.flatMap fun s => s.dependencies.map fun n =>
    ⟨s.name, n.service, n.requirement⟩).filter fun u => ¬ Depends edges u.service u.dependency
  unused_ascending : d.unused.Pairwise fun u v => (unusedOrder u v).isLE
  valid_iff : d.valid = true ↔ d.missing = []

theorem mem_perService {p : String × List EdgeStatus} (hp : p ∈ (ofEdges edges r).perService) :
    p.2 = outgoing p.1 (statuses edges r) := by
  rw [perService_ofEdges] at hp
  obtain ⟨name, -, rfl⟩ := List.mem_map.1 hp
  rfl

theorem mem_outgoing {name : String} {l : List EdgeStatus} {s : EdgeStatus} :
    s ∈ outgoing name l ↔ s ∈ l ∧ s.edge.consumer = name := by
  simp [outgoing, mem_sortBy]

theorem keys_ofEdges (edges : List Edge) (r : Registry) :
    (ofEdges edges r).perService.map Prod.fst = names edges r := by
  rw [perService_ofEdges, List.map_map]
  exact List.map_id _

theorem classifies_ofEdges (built : Registry.ofSettings settings = .ok r) (edges : List Edge) :
    (ofEdges edges r).Classifies r edges where
  keys_ascending := by
    rw [keys_ofEdges]
    exact ascending_pairwise compare _
  mem_keys := by
    intro a
    rw [keys_ofEdges]
    exact mem_names
  edges_perm := by
    refine ((statuses_perm edges r).map EdgeStatus.edge).trans (List.Perm.of_eq ?_)
    rw [statuses, List.map_map]
    exact List.map_id _
  own := by
    intro p hp s hs
    rw [mem_perService hp] at hs
    exact (mem_outgoing.1 hs).2
  lists_ascending := by
    intro p hp
    rw [mem_perService hp]
    exact sortBy_pairwise (compareOn fun s : EdgeStatus => s.edge.provider) _
  declared_iff := by
    intro p hp s hs
    rw [mem_perService hp] at hs
    obtain ⟨e, -, -, rfl⟩ := mem_statuses.1 (mem_outgoing.1 hs).1
    exact Registry.declares_iff built
  missing_perm := by
    rw [missing_ofEdges]
    exact (sortBy_perm _ _).trans (((statuses_perm edges r).filter _).map _).symm
  missing_ascending := sortBy_pairwise _ _
  unused_perm := by
    rw [unused_ofEdges]
    refine (sortBy_perm _ _).trans (List.Perm.of_eq ?_)
    apply List.filter_congr
    intro u hu
    have used := isUsed_iff edges (declares_of_mem_declarations built hu)
    cases leads : isUsed (statuses edges r) u.service u.dependency with
    | true => simp [used.1 leads]
    | false => simp [mt used.2 (by simp [leads])]
  unused_ascending := sortBy_pairwise unusedOrder _
  valid_iff := List.isEmpty_iff

section Order

variable (perm : edges ~ more)

include perm

theorem statuses_perm_of_perm (r : Registry) : statuses edges r ~ statuses more r :=
  (perm.filter _).map _

theorem names_congr (r : Registry) : names edges r = names more r := by
  apply eq_of_ascending (ascending_pairwise compare _) (ascending_pairwise compare _)
  intro a
  change a ∈ names edges r ↔ a ∈ names more r
  simp only [mem_names, perm.mem_iff]

theorem unused_congr (r : Registry) : (ofEdges edges r).unused = (ofEdges more r).unused := by
  rw [unused_ofEdges, unused_ofEdges]
  have used : ∀ a b, isUsed (statuses edges r) a b = isUsed (statuses more r) a b := by
    intro a b
    exact (statuses_perm_of_perm perm r).any_eq
  simp only [used]

end Order

/-- No two of the edges lead from one service to the same other one. -/
def Distinct (edges : List Edge) : Prop :=
  ((edges.filter (!·.isLoop)).map fun e => (e.consumer, e.provider)).Nodup

theorem statuses_pairwise (distinct : Distinct edges) (r : Registry) :
    (statuses edges r).Pairwise fun s t => Edge.pairOrder s.edge t.edge ≠ .eq := by
  rw [statuses, List.pairwise_map]
  refine (List.pairwise_map.1 distinct).imp ?_
  intro e f differ same
  obtain ⟨consumer, provider⟩ := Edge.pairOrder_eq.1 same
  exact differ (Prod.ext consumer provider)

theorem outgoing_congr (perm : edges ~ more) (distinct : Distinct edges) (r : Registry) (name : String) :
    outgoing name (statuses edges r) = outgoing name (statuses more r) := by
  apply sortBy_eq_of_perm ((statuses_perm_of_perm perm r).filter _)
  refine (((statuses_pairwise distinct r).filter _).imp_of_mem ?_)
  intro s t hs ht differ same
  have consumer : s.edge.consumer = t.edge.consumer := by
    have first := of_decide_eq_true (List.mem_filter.1 hs).2
    have second := of_decide_eq_true (List.mem_filter.1 ht).2
    exact first.trans second.symm
  have provider : s.edge.provider = t.edge.provider := Std.LawfulEqCmp.eq_of_compare same
  exact differ (Edge.pairOrder_eq.2 ⟨consumer, provider⟩)

theorem missing_congr (perm : edges ~ more) (distinct : Distinct edges) (r : Registry) :
    (ofEdges edges r).missing = (ofEdges more r).missing := by
  rw [missing_ofEdges, missing_ofEdges]
  apply sortBy_eq_of_perm (((statuses_perm_of_perm perm r).filter _).map _)
  rw [List.pairwise_map]
  exact (statuses_pairwise distinct r).filter _

theorem ofEdges_congr (perm : edges ~ more) (distinct : Distinct edges) (r : Registry) :
    ofEdges edges r = ofEdges more r := by
  have perService : (ofEdges edges r).perService = (ofEdges more r).perService := by
    rw [perService_ofEdges, perService_ofEdges, names_congr perm]
    simp only [outgoing_congr perm distinct]
  calc ofEdges edges r
      = ⟨(ofEdges edges r).perService, (ofEdges edges r).missing, (ofEdges edges r).unused⟩ := rfl
    _ = ⟨(ofEdges more r).perService, (ofEdges more r).missing, (ofEdges more r).unused⟩ := by
        rw [perService, missing_congr perm distinct, unused_congr perm]
    _ = ofEdges more r := rfl

/-- The report on declarations classifies every edge between two services once; and it is the same for
every order of the edges when no two of them lead from one service to the same other one. -/
theorem edges_classified (built : Registry.ofSettings settings = .ok r) (edges : List Edge) :
    (ofEdges edges r).Classifies r edges ∧
      ∀ more, edges ~ more → Distinct edges → ofEdges edges r = ofEdges more r :=
  ⟨classifies_ofEdges built edges, fun _ perm distinct => ofEdges_congr perm distinct r⟩

/-- Three services. One depends on the two others. -/
def teamSettings : Settings where
  projectRoot := ⟨"/"⟩
  configPath := ⟨"/c"⟩
  checks := .all
  exclude := []
  includeTests := false
  services := [⟨"web", "ts", "web", [], [], [], [], []⟩,
    ⟨"jobs", "py", "jobs", [], [], [], [], [.named "web", .detailed "mail" .optional]⟩,
    ⟨"mail", "go", "mail", [], [], [], [], []⟩]

def teamRegistry : Registry where
  projectRoot := ⟨"/"⟩
  services := [⟨"web", .typescript, ⟨"/web"⟩, ⟨"web"⟩, ⟨none, none, false⟩, [], [], []⟩,
    ⟨"jobs", .python, ⟨"/jobs"⟩, ⟨"jobs"⟩, ⟨none, none, false⟩, [], [],
      [⟨"web", .required⟩, ⟨"mail", .optional⟩]⟩,
    ⟨"mail", .go, ⟨"/mail"⟩, ⟨"mail"⟩, ⟨none, none, false⟩, [], [], []⟩]

/-- An edge that is declared, one that is declared the other way round, one from a service to itself, and
one from a service that is not registered. -/
def teamEdges : List Edge :=
  [⟨"jobs", "web", .ofList ["x"]⟩, ⟨"web", "jobs", .ofList ["y"]⟩, ⟨"mail", "mail", .ofList ["z"]⟩,
    ⟨"cron", "mail", .ofList ["z"]⟩]

theorem edges_classified_team :
    Registry.ofSettings teamSettings = .ok teamRegistry ∧ teamEdges ~ teamEdges.reverse ∧
      Distinct teamEdges ∧ (ofEdges teamEdges teamRegistry).Classifies teamRegistry teamEdges ∧
      ofEdges teamEdges teamRegistry = ofEdges teamEdges.reverse teamRegistry ∧
      ⟨"cron", "mail", .ofList ["z"]⟩ ∈ (ofEdges teamEdges teamRegistry).missing ∧
      (ofEdges teamEdges teamRegistry).unused = [⟨"jobs", "mail", .optional⟩] := by
  have built : Registry.ofSettings teamSettings = .ok teamRegistry := by cbv
  have perm : teamEdges ~ teamEdges.reverse := (List.reverse_perm teamEdges).symm
  have distinct : Distinct teamEdges := by
    unfold Distinct
    decide
  have missing : ⟨"cron", "mail", .ofList ["z"]⟩ ∈ (ofEdges teamEdges teamRegistry).missing :=
    mem_missing.2 ⟨by simp [teamEdges], by decide, by decide⟩
  have unused : (ofEdges teamEdges teamRegistry).unused = [⟨"jobs", "mail", .optional⟩] := by
    rw [unused_ofEdges]
    cbv
  obtain ⟨classifies, same⟩ := edges_classified built teamEdges
  exact ⟨built, perm, distinct, classifies, same _ perm distinct, missing, unused⟩

end DeclarationReport
end ServiceMap
