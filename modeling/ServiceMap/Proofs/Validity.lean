import ServiceMap.Audit
import ServiceMap.Proofs.Boundaries
import ServiceMap.Proofs.CycleCover

/-! When a report is valid: what it takes for each of the checks to find nothing. All of it gets
weaker when there are fewer edges and fewer imports. -/

namespace ServiceMap

theorem sortBy_eq_nil_iff {α : Type} {cmp : α → α → Ordering} {l : List α} :
    sortBy cmp l = [] ↔ l = [] := by
  rw [← List.length_eq_zero_iff, (sortBy_perm cmp l).length_eq, List.length_eq_zero_iff]

theorem DeclarationReport.valid_ofEdges_iff {edges : List Edge} {r : Registry} :
    (ofEdges edges r).valid = true ↔ ∀ a b, Depends edges a b → r.declares a b = true := by
  simp only [valid, ofEdges, List.isEmpty_iff, sortBy_eq_nil_iff, List.map_eq_nil_iff,
    List.filter_eq_nil_iff, List.mem_map, List.mem_filter, Depends]
  constructor
  · rintro none a b ⟨ne, e, he, rfl, rfl⟩
    have := none (status r e) ⟨e, ⟨he, by simp [Edge.isLoop, ne]⟩, rfl⟩
    simpa [status] using this
  · rintro all s ⟨e, ⟨he, other⟩, rfl⟩
    have ne : e.consumer ≠ e.provider := by simpa [Edge.isLoop] using other
    simp [status, all _ _ ⟨ne, e, he, rfl, rfl⟩]

theorem LanguageReport.valid_ofScans_iff {tree : FileTree} {r : Registry} {scans : List Scan} :
    (ofScans tree r scans).valid = true ↔
      ∀ s scan, (s, scan) ∈ r.services.zip scans → mismatch? tree s scan = none := by
  simp only [valid, ofScans, List.isEmpty_iff, sortBy_eq_nil_iff, List.filterMap_eq_nil_iff,
    Prod.forall]

theorem Registry.report_valid_iff {r : Registry} {tree : FileTree} {checks : Checks}
    {scans : List Scan} {graph : Graph} :
    (r.report tree checks scans graph).valid = true ↔
      (checks.crossService → ∀ a b, Depends graph.edges a b → r.declares a b = true) ∧
      (checks.circular → Acyclic (Depends graph.edges)) ∧
      (checks.boundaries → ∀ scan ∈ scans, ∀ s, r.find? scan.service = some s →
        ∀ i ∈ scan.imports, r.violation? s i = none) ∧
      (checks.polyglot → ∀ s scan, (s, scan) ∈ r.services.zip scans →
        LanguageReport.mismatch? tree s scan = none) := by
  have off : ∀ {α : Type} {b : Bool} {x : α} {p : α → Bool},
      (if b then some x else none).all p = true ↔ (b = true → p x = true) := by
    intro α b x p
    cases b <;> simp
  simp only [Report.valid, report, Bool.and_eq_true, off, DeclarationReport.valid_ofEdges_iff,
    List.isEmpty_iff, cycles_eq_nil_iff, boundaryViolations_eq_nil_iff,
    LanguageReport.valid_ofScans_iff, and_assoc]

end ServiceMap
