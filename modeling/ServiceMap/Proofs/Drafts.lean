import ServiceMap.Graph.Basic
import ServiceMap.Proofs.Links

/-! What a run of steps gathers, whatever the steps, and what the graph makes of it: a call goes to
an edge, to the calls of a service to itself or to the unresolved ones by what its target reaches. -/

namespace ServiceMap

open scoped List

namespace Draft

/-- One call is added, or everything that a scan holds. -/
inductive Step where
  | call (o : Outgoing)
  | scan (s : Scan)

def Step.calls : Step → List Outgoing
  | call o => [o]
  | scan s => s.calls.map (Outgoing.mk s.service)

def Step.warnings : Step → List Warning
  | call _ => []
  | scan s => s.warnings

def step (d : Draft) : Step → Draft
  | .call o => d.addCall o.consumer o.call
  | .scan s => d.addScan s

/-- A run of steps from an empty draft. -/
def run (steps : List Step) : Draft := steps.foldl step empty

theorem step_calls (d : Draft) (t : Step) : (d.step t).calls = d.calls ++ t.calls := by
  cases t with
  | call o => rfl
  | scan s => rfl

theorem step_warnings (d : Draft) (t : Step) : (d.step t).warnings = d.warnings ++ t.warnings := by
  cases t with
  | call o => exact (List.append_nil _).symm
  | scan s => rfl

theorem foldl_step (d : Draft) (steps : List Step) :
    (steps.foldl step d).calls = d.calls ++ steps.flatMap Step.calls ∧
      (steps.foldl step d).warnings = d.warnings ++ steps.flatMap Step.warnings := by
  induction steps generalizing d with
  | nil => simp
  | cons t steps ih =>
    obtain ⟨calls, warnings⟩ := ih (d.step t)
    rw [List.foldl_cons, calls, warnings, step_calls, step_warnings]
    simp only [List.flatMap_cons, List.append_assoc, and_self]

@[simp] theorem run_calls (steps : List Step) : (run steps).calls = steps.flatMap Step.calls :=
  (foldl_step empty steps).1

@[simp] theorem run_warnings (steps : List Step) :
    (run steps).warnings = steps.flatMap Step.warnings :=
  (foldl_step empty steps).2

theorem ofScans_eq_run (scans : List Scan) : ofScans scans = run (scans.map .scan) := by
  rw [run, List.foldl_map]
  rfl

end Draft

namespace Outgoing

/-- What the call adds to the edges, if it reaches another service. -/
def link? (o : Outgoing) : Option Link :=
  match o.call.resolution with
  | some x => if x.provider = o.consumer then none else some ⟨o.consumer, x.provider, x.api⟩
  | none => none

/-- The target reaches another service. -/
def crosses (r : Registry) (o : Outgoing) : Bool :=
  (r.resolve? o.call.target).any fun x => x.provider ≠ o.consumer

/-- The target reaches the service that makes the call. -/
def returns (r : Registry) (o : Outgoing) : Bool :=
  (r.resolve? o.call.target).any fun x => x.provider = o.consumer

/-- The target reaches nothing. -/
def fails (r : Registry) (o : Outgoing) : Bool := (r.resolve? o.call.target).isNone

theorem link?_resolved {r : Registry} {o : Outgoing} {l : Link} :
    (o.resolved r).link? = some l ↔
      l.provider ≠ l.consumer ∧ o.consumer = l.consumer ∧
        r.resolve? o.call.target = some ⟨l.provider, l.api⟩ := by
  have reached : (o.resolved r).call.resolution = r.resolve? o.call.target := rfl
  have consumer : (o.resolved r).consumer = o.consumer := rfl
  rw [link?, reached, consumer]
  cases r.resolve? o.call.target with
  | none => simp
  | some x =>
    constructor
    · intro made
      dsimp only at made
      split at made
      · cases made
      · next other =>
        cases made
        exact ⟨other, rfl, rfl⟩
    · rintro ⟨other, consumer, found⟩
      cases found
      rw [consumer]
      exact if_neg other

/-- Every call goes to one of the three places, and to that one alone. -/
theorem one_place (r : Registry) (o : Outgoing) :
    (crosses r o = true ∧ returns r o = false ∧ fails r o = false) ∨
      (crosses r o = false ∧ returns r o = true ∧ fails r o = false) ∨
        (crosses r o = false ∧ returns r o = false ∧ fails r o = true) := by
  unfold crosses returns fails
  cases r.resolve? o.call.target with
  | none => simp
  | some x =>
    by_cases self : x.provider = o.consumer
    · simp [self]
    · simp [self]

theorem partition (r : Registry) (calls : List Outgoing) :
    calls.filter (crosses r) ++ (calls.filter (returns r) ++ calls.filter (fails r)) ~ calls := by
  induction calls with
  | nil => simp
  | cons o calls ih =>
    rcases one_place r o with place | place | place
    · simp only [List.filter_cons, place, if_true, Bool.false_eq_true, if_false]
      exact ih.cons o
    · simp only [List.filter_cons, place, if_true, Bool.false_eq_true, if_false]
      exact List.perm_middle.trans (ih.cons o)
    · simp only [List.filter_cons, place, if_true, Bool.false_eq_true, if_false]
      rw [← List.append_assoc] at ih ⊢
      exact List.perm_middle.trans (ih.cons o)

/-- The calls that fulfil `p`, with what they reach. -/
def picked (r : Registry) (p : Outgoing → Bool) (calls : List Outgoing) : List CallSite :=
  (calls.filter p).map fun o => o.call.resolved r

variable {r : Registry} {p : Outgoing → Bool}

theorem picked_append (calls more : List Outgoing) :
    picked r p (calls ++ more) = picked r p calls ++ picked r p more := by
  rw [picked, List.filter_append, List.map_append]
  rfl

theorem picked_flatMap {α : Type} (l : List α) (f : α → List Outgoing) :
    picked r p (l.flatMap f) = l.flatMap fun a => picked r p (f a) := by
  simp only [picked, List.filter_flatMap, List.map_flatMap]

theorem picked_perm {calls calls' : List Outgoing} (perm : calls ~ calls') :
    picked r p calls ~ picked r p calls' :=
  (perm.filter p).map _

theorem file_of_mem_picked {calls : List Outgoing} {c : CallSite} (h : c ∈ picked r p calls) :
    ∃ o ∈ calls, c.file = o.call.file := by
  obtain ⟨o, ho, rfl⟩ := List.mem_map.1 h
  exact ⟨o, (List.mem_filter.1 ho).1, rfl⟩

end Outgoing

namespace Places

variable {r : Registry}

/-- A call goes to one place, and the others stay as they are. -/
theorem add_eq (p : Places) (o : Outgoing) : p.add r o =
    ⟨(o.resolved r).link?.toList.foldl EdgeTable.add p.edges,
      p.unresolved ++ Outgoing.picked r (Outgoing.fails r) [o],
      p.selfCalls ++ Outgoing.picked r (Outgoing.returns r) [o]⟩ := by
  have reached : (o.call.resolved r).resolution = r.resolve? o.call.target := rfl
  unfold add Outgoing.link? Outgoing.picked Outgoing.fails Outgoing.returns Outgoing.resolved
  cases found : r.resolve? o.call.target with
  | none => simp [reached, found]
  | some x =>
    by_cases self : x.provider = o.consumer
    · simp [reached, found, self]
    · simp [reached, found, self]

theorem foldl_add (p : Places) (calls : List Outgoing) : calls.foldl (add r) p =
    ⟨((calls.map (·.resolved r)).filterMap Outgoing.link?).foldl EdgeTable.add p.edges,
      p.unresolved ++ Outgoing.picked r (Outgoing.fails r) calls,
      p.selfCalls ++ Outgoing.picked r (Outgoing.returns r) calls⟩ := by
  induction calls generalizing p with
  | nil => simp [Outgoing.picked]
  | cons o calls ih =>
    have split (q : Outgoing → Bool) :
        Outgoing.picked r q (o :: calls) = Outgoing.picked r q [o] ++ Outgoing.picked r q calls := by
      rw [← Outgoing.picked_append]
      rfl
    have links : ((o :: calls).map (·.resolved r)).filterMap Outgoing.link? =
        (o.resolved r).link?.toList ++ (calls.map (·.resolved r)).filterMap Outgoing.link? := by
      cases link : (o.resolved r).link? <;> simp [link]
    rw [List.foldl_cons, ih, add_eq, split, split, links, List.foldl_append, List.append_assoc,
      List.append_assoc]

end Places

namespace Draft

variable (d : Draft) (r : Registry)

/-- The places fill up as the steps come: each adds its own calls to what is there. -/
theorem places_step (t : Step) : (d.step t).places r = t.calls.foldl (Places.add r) (d.places r) := by
  rw [places, step_calls, List.foldl_append]
  rfl

theorem graph_edges :
    (d.graph r).edges = Edge.ofLinks ((d.resolved r).filterMap Outgoing.link?) := by
  rw [graph, places, Places.foldl_add]
  exact EdgeTable.edges_foldl _

theorem graph_unresolved : (d.graph r).unresolved =
    sortBy CallSite.order (Outgoing.picked r (Outgoing.fails r) d.calls) := by
  rw [graph, places, Places.foldl_add]
  rfl

theorem graph_selfCalls : (d.graph r).selfCalls =
    sortBy CallSite.order (Outgoing.picked r (Outgoing.returns r) d.calls) := by
  rw [graph, places, Places.foldl_add]
  rfl

end Draft
end ServiceMap
