import ServiceMap.Proofs.Accounts

/-! The order in which services are scanned does not show in the graph. Calls are sorted by file, line
and target, which is not all that is in a call: those that compare equal stay as they came. They are all of
one file, and so of one scan. -/

namespace ServiceMap

open scoped List

namespace Scan

/-- The files whose calls or faults a scan holds. -/
def files (s : Scan) : List Path :=
  s.calls.map CallSite.file ++ s.warnings.filterMap Warning.file?

/-- No file is in both scans. -/
def Apart (s t : Scan) : Prop := ∀ f ∈ s.files, ∀ g ∈ t.files, compare f g ≠ .eq

instance (s t : Scan) : Decidable (Apart s t) :=
  inferInstanceAs (Decidable (∀ f ∈ s.files, ∀ g ∈ t.files, compare f g ≠ .eq))

end Scan

theorem CallSite.file_eq_of_order {a b : CallSite} (h : CallSite.order a b = .eq) :
    compare a.file b.file = .eq :=
  (Ordering.then_eq_eq.1 h).1

/-- Two warnings that compare equal are the same, or of the same file. -/
theorem Warning.eq_or_file {a b : Warning} (h : compare a b = .eq) :
    a = b ∨ ∃ f g, a.file? = some f ∧ b.file? = some g ∧ compare f g = .eq := by
  obtain ⟨rank, rest⟩ := Ordering.then_eq_eq.1 h
  obtain ⟨service, rest⟩ := Ordering.then_eq_eq.1 rest
  obtain ⟨file, -⟩ := Ordering.then_eq_eq.1 rest
  cases a with
  | noSourceFiles s =>
    cases b with
    | noSourceFiles t => exact .inl (congrArg _ (Std.LawfulEqOrd.eq_of_compare service))
    | unreadableFile t g reason => cases rank
  | unreadableFile s f reason =>
    cases b with
    | noSourceFiles t => cases rank
    | unreadableFile t g reason => exact .inr ⟨f, g, rfl, rfl, file⟩

namespace Draft

variable {r : Registry}

theorem edges_congr {d e : Draft} (same : ∀ o, o ∈ d.calls ↔ o ∈ e.calls) :
    (d.graph r).edges = (e.graph r).edges := by
  rw [graph_edges, graph_edges]
  refine Edge.ofLinks_congr fun l => ?_
  simp only [resolved, List.mem_filterMap, List.mem_map, exists_exists_and_eq_and, same]

theorem graph_ascending (d : Draft) (r : Registry) :
    (d.graph r).unresolved.Pairwise (fun a b => (CallSite.order a b).isLE) ∧
      (d.graph r).selfCalls.Pairwise fun a b => (CallSite.order a b).isLE := by
  rw [graph_unresolved, graph_selfCalls]
  exact ⟨sortBy_pairwise _ _, sortBy_pairwise _ _⟩

theorem run_calls_perm {steps steps' : List Step} (perm : steps ~ steps') :
    (run steps).calls ~ (run steps').calls := by
  rw [run_calls, run_calls]
  exact perm.flatMap_right _

theorem run_perm {steps steps' : List Step} (perm : steps ~ steps') :
    ((run steps).graph r).edges = ((run steps').graph r).edges ∧
      ((run steps).graph r).unresolved ~ ((run steps').graph r).unresolved ∧
        ((run steps).graph r).selfCalls ~ ((run steps').graph r).selfCalls := by
  have calls := run_calls_perm perm
  rw [graph_unresolved, graph_unresolved, graph_selfCalls, graph_selfCalls]
  have sorted : ∀ {p}, sortBy CallSite.order (Outgoing.picked r p (run steps).calls) ~
      sortBy CallSite.order (Outgoing.picked r p (run steps').calls) := by
    intro p
    exact (sortBy_perm _ _).trans ((Outgoing.picked_perm calls).trans (sortBy_perm _ _).symm)
  exact ⟨edges_congr fun _ => calls.mem_iff, sorted, sorted⟩

/-- Calls of two scans never compare equal. -/
theorem sortBy_picked_perm {p : Outgoing → Bool} {scans scans' : List Scan}
    (perm : scans ~ scans') (apart : scans.Pairwise Scan.Apart) :
    sortBy CallSite.order (Outgoing.picked r p (scans.flatMap fun s => (Step.scan s).calls)) =
      sortBy CallSite.order (Outgoing.picked r p (scans'.flatMap fun s => (Step.scan s).calls)) := by
  have inScan : ∀ {s c}, c ∈ Outgoing.picked r p (Step.scan s).calls → c.file ∈ s.files := by
    intro s c hc
    obtain ⟨o, ho, file⟩ := Outgoing.file_of_mem_picked hc
    obtain ⟨call, hcall, rfl⟩ := List.mem_map.1 ho
    rw [file]
    exact List.mem_append_left _ (List.mem_map_of_mem hcall)
  rw [Outgoing.picked_flatMap, Outgoing.picked_flatMap]
  refine sortBy_flatMap_perm perm (apart.imp fun {s t} apart a ha b hb same => ?_)
  exact absurd (CallSite.file_eq_of_order same) (apart _ (inScan ha) _ (inScan hb))

theorem sortBy_warnings_perm {scans scans' : List Scan} (perm : scans ~ scans')
    (apart : scans.Pairwise Scan.Apart) :
    sortBy compare (scans.flatMap Scan.warnings) = sortBy compare (scans'.flatMap Scan.warnings) := by
  have inScan : ∀ {s : Scan} {w f}, w ∈ s.warnings → w.file? = some f → f ∈ s.files := by
    intro s w f hw file
    exact List.mem_append_right _ (List.mem_filterMap.2 ⟨w, hw, file⟩)
  refine sortBy_flatMap_perm perm (apart.imp fun {s t} apart a ha b hb same => ?_)
  rcases Warning.eq_or_file same with eq | ⟨f, g, hf, hg, level⟩
  · exact eq
  · exact absurd level (apart f (inScan ha hf) g (inScan hb hg))

end Draft

theorem Graph.ofScans_perm {r : Registry} {scans scans' : List Scan} (perm : scans ~ scans')
    (apart : scans.Pairwise Scan.Apart) : ofScans r scans = ofScans r scans' := by
  rw [ofScans, ofScans, Draft.ofScans_eq_run, Draft.ofScans_eq_run]
  ext1
  · exact (Draft.run_perm (perm.map _)).1
  · rw [Draft.graph_unresolved, Draft.graph_unresolved, Draft.run_calls, Draft.run_calls,
      List.flatMap_map, List.flatMap_map]
    exact Draft.sortBy_picked_perm perm apart
  · rw [Draft.graph_selfCalls, Draft.graph_selfCalls, Draft.run_calls, Draft.run_calls,
      List.flatMap_map, List.flatMap_map]
    exact Draft.sortBy_picked_perm perm apart
  · show sortBy compare _ = sortBy compare _
    rw [Draft.run_warnings, Draft.run_warnings, List.flatMap_map, List.flatMap_map]
    exact Draft.sortBy_warnings_perm perm apart

/-- Scans of different files may come in any order, and steps of any kind too, but for the order in which
calls of one place are left. -/
theorem graph_order_free (r : Registry) :
    (∀ scans scans' : List Scan, scans ~ scans' → scans.Pairwise Scan.Apart →
      Graph.ofScans r scans = Graph.ofScans r scans') ∧
      ∀ steps steps' : List Draft.Step, steps ~ steps' →
        let g := (Draft.run steps).graph r
        let h := (Draft.run steps').graph r
        g.edges = h.edges ∧ g.unresolved ~ h.unresolved ∧ g.selfCalls ~ h.selfCalls ∧
          g.unresolved.Pairwise (fun a b => (CallSite.order a b).isLE) ∧
            g.selfCalls.Pairwise fun a b => (CallSite.order a b).isLE := by
  refine ⟨fun _ _ => Graph.ofScans_perm, fun steps steps' perm => ?_⟩
  obtain ⟨edges, unresolved, selfCalls⟩ := Draft.run_perm (r := r) perm
  exact ⟨edges, unresolved, selfCalls, Draft.graph_ascending _ r⟩

/-- Two scans. The calls of the first are of one place, and only their rules tell them apart. -/
def pairScans : List Scan :=
  [{ service := "a", calls := [⟨⟨"a.go"⟩, 1, "/z", "r", none⟩, ⟨⟨"a.go"⟩, 1, "/z", "q", none⟩] },
    { service := "b", calls := [⟨⟨"b.py"⟩, 1, "/x", "r", none⟩], warnings := [.noSourceFiles "b"] }]

theorem graph_order_free_pair :
    (pairScans ~ pairScans.reverse ∧ pairScans.Pairwise Scan.Apart ∧
      Graph.ofScans pairRegistry pairScans = Graph.ofScans pairRegistry pairScans.reverse ∧
        (Graph.ofScans pairRegistry pairScans.reverse).unresolved.map CallSite.rule = ["r", "q"]) ∧
      pairSteps ~ pairSteps.reverse ∧
        ((Draft.run pairSteps).graph pairRegistry).edges =
          ((Draft.run pairSteps.reverse).graph pairRegistry).edges := by
  have perm : pairScans ~ pairScans.reverse := (List.reverse_perm pairScans).symm
  have apart : pairScans.Pairwise Scan.Apart := by decide
  have rules : (Graph.ofScans pairRegistry pairScans.reverse).unresolved.map CallSite.rule =
      ["r", "q"] := by cbv
  have steps : pairSteps ~ pairSteps.reverse := (List.reverse_perm pairSteps).symm
  obtain ⟨scanned, stepped⟩ := graph_order_free pairRegistry
  exact ⟨⟨perm, apart, scanned _ _ perm apart, rules⟩, steps, (stepped _ _ steps).1⟩

end ServiceMap
