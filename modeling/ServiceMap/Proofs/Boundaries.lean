import ServiceMap.Audit.Boundaries

/-! The boundary report as a set: what stands in it, when it is empty, and which imports it does without. -/

namespace ServiceMap.Registry

variable {r : Registry} {s : Service}

theorem mem_boundaryViolations {scans : List Scan} {v : BoundaryViolation} :
    v ∈ r.boundaryViolations scans ↔ ∃ scan ∈ scans, ∃ s, r.find? scan.service = some s ∧
      ∃ i ∈ scan.imports, r.violation? s i = some v := by
  rw [boundaryViolations, mem_sortBy, List.mem_flatMap]
  refine exists_congr fun scan => and_congr_right fun _ => ?_
  unfold scanViolations
  cases r.find? scan.service with
  | none => simp
  | some s => simp [List.mem_filterMap]

theorem boundaryViolations_eq_nil_iff {scans : List Scan} :
    r.boundaryViolations scans = [] ↔ ∀ scan ∈ scans, ∀ s, r.find? scan.service = some s →
      ∀ i ∈ scan.imports, r.violation? s i = none := by
  rw [List.eq_nil_iff_forall_not_mem]
  constructor
  · intro clean scan hscan s found i hi
    cases seen : r.violation? s i with
    | none => rfl
    | some v => exact (clean v (mem_boundaryViolations.2 ⟨scan, hscan, s, found, i, hi, seen⟩)).elim
  · intro fine v hv
    obtain ⟨scan, hscan, s, found, i, hi, seen⟩ := mem_boundaryViolations.1 hv
    rw [fine scan hscan s found i hi] at seen
    cases seen

/-- An import that crosses no boundary can be left out. -/
theorem boundaryViolations_drop {front back : List Scan} {scan : Scan} {is js : List Import} {i : Import}
    (found : r.find? scan.service = some s) (fine : r.violation? s i = none) :
    r.boundaryViolations (front ++ { scan with imports := is ++ i :: js } :: back) =
      r.boundaryViolations (front ++ { scan with imports := is ++ js } :: back) := by
  have same : r.scanViolations { scan with imports := is ++ i :: js } =
      r.scanViolations { scan with imports := is ++ js } := by
    simp [scanViolations, found, List.filterMap_append, fine]
  rw [boundaryViolations, boundaryViolations, List.flatMap_append, List.flatMap_append,
    List.flatMap_cons, List.flatMap_cons, same]

end ServiceMap.Registry
