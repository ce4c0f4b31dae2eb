import Mathlib
import ServiceMap.Proofs.Collapse
import ServiceMap.Proofs.Ownership
import ServiceMap.Proofs.Sorting
import ServiceMap.Proofs.Validity
import ServiceMap.Report.Document

/-! The boundary report import by import. Each import adds at most one violation, and the report holds
what they add in ascending order: reports of parts are merged to that of the whole, and the order of
scans and imports shows only in how a path is written. -/

namespace ServiceMap

open scoped List

namespace BoundaryViolation

instance : Std.TransOrd BoundaryViolation :=
  inferInstanceAs (Std.TransCmp (compareLex (compareOn importer) (compareLex (compareOn owner)
    (compareLex (compareOn file) (compareLex (compareOn line) (compareOn target))))))

/-- One violation, but for how the path of its file is written. -/
structure Same (v w : BoundaryViolation) : Prop where
  rest : { v with file := w.file } = w
  file : v.file.components = w.file.components

theorem same_of_compare {v w : BoundaryViolation} (h : compare v w = .eq) : v.Same w := by
  obtain ⟨importer, h⟩ := Ordering.then_eq_eq.1 h
  obtain ⟨owner, h⟩ := Ordering.then_eq_eq.1 h
  obtain ⟨file, h⟩ := Ordering.then_eq_eq.1 h
  obtain ⟨line, target⟩ := Ordering.then_eq_eq.1 h
  have importer : v.importer = w.importer := Std.LawfulEqOrd.eq_of_compare importer
  have owner : v.owner = w.owner := Std.LawfulEqOrd.eq_of_compare owner
  have line : v.line = w.line := Std.LawfulEqOrd.eq_of_compare line
  have target : v.target = w.target := Std.LawfulEqOrd.eq_of_compare target
  refine ⟨?_, Path.compare_eq_iff.1 file⟩
  rw [importer, owner, line, target]

end BoundaryViolation

namespace Scan

/-- The imports of the scans, each with the service that makes it. -/
def importsOf (scans : List Scan) : List (String × Import) :=
  scans.flatMap fun scan => scan.imports.map fun i => (scan.service, i)

/-- The same imports of one service. -/
structure Reordered (s t : Scan) : Prop where
  service : s.service = t.service
  imports : s.imports ~ t.imports

/-- The same scans in another order, and in each of them the same imports in another order. -/
def Shuffled (xs ys : List Scan) : Prop := ∃ zs, xs ~ zs ∧ List.Forall₂ Reordered zs ys

theorem importsOf_perm {xs ys : List Scan} (h : Shuffled xs ys) : importsOf xs ~ importsOf ys := by
  obtain ⟨zs, perm, alike⟩ := h
  refine (perm.flatMap_right _).trans ?_
  clear perm
  induction alike with
  | nil => rfl
  | @cons s t _ _ same _ ih =>
    rw [importsOf, List.flatMap_cons, List.flatMap_cons, same.service]
    exact (same.imports.map _).append ih

end Scan

namespace Registry

variable {r : Registry}

/-- What one import adds to the report, given the name of the service that makes it. -/
def crossing? (r : Registry) (made : String × Import) : Option BoundaryViolation :=
  (r.find? made.1).bind fun s => r.violation? s made.2

theorem flatMap_scanViolations (scans : List Scan) :
    scans.flatMap r.scanViolations = (Scan.importsOf scans).filterMap r.crossing? := by
  rw [Scan.importsOf, List.filterMap_flatMap]
  refine List.flatMap_congr fun scan _ => ?_
  rw [scanViolations, List.filterMap_map]
  cases found : r.find? scan.service with
  | none => simp [crossing?, Function.comp_def, found]
  | some s => simp [crossing?, Function.comp_def, found]

theorem boundaryViolations_eq (scans : List Scan) : r.boundaryViolations scans =
    sortBy compare ((Scan.importsOf scans).filterMap r.crossing?) := by
  rw [boundaryViolations, flatMap_scanViolations]

theorem boundaryViolations_append (xs ys : List Scan) : r.boundaryViolations (xs ++ ys) =
    (r.boundaryViolations xs).merge (r.boundaryViolations ys) fun v w => (compare v w).isLE := by
  rw [boundaryViolations, List.flatMap_append, sortBy_append]
  rfl

theorem boundaryViolations_shuffled {xs ys : List Scan} (h : Scan.Shuffled xs ys) :
    List.Forall₂ BoundaryViolation.Same (r.boundaryViolations xs) (r.boundaryViolations ys) := by
  rw [boundaryViolations_eq, boundaryViolations_eq]
  have perm := (Scan.importsOf_perm h).filterMap r.crossing?
  exact (sortBy_forall₂_of_perm perm).imp fun _ _ => BoundaryViolation.same_of_compare

/-- The service has the place: its root is around it, and every other root around it is above that
one or the same. -/
structure Owns (r : Registry) (s : Service) (p : Path) : Prop where
  owner : r.owner? p = some s
  registered : s ∈ r.services
  around : s.contains p = true
  deepest : ∀ t ∈ r.services, t.contains p = true → t.root.components <+: s.root.components

theorem owns_of_owner? {s : Service} {p : Path} (h : r.owner? p = some s) : r.Owns s p := by
  obtain ⟨registered, around, deepest⟩ := owner?_deepest h
  exact ⟨h, registered, around, deepest⟩

/-- A violation that an import of the importer adds to the report. -/
structure Crosses (r : Registry) (importer : Service) (i : Import) (v : BoundaryViolation) : Prop where
  registered : importer ∈ r.services
  importer_eq : v.importer = importer.name
  file : v.file = i.file
  line : v.line = i.line
  target : v.target = i.target
  /-- The owner is registered and another one, -/
  owner : ∃ s ∈ r.services, v.owner = s.name ∧ s.name ≠ importer.name ∧
    -- and has the place that a relative import leads to.
    (i.isRelative = true → ∃ p, (i.place importer.language).collapse? = some p ∧
      r.Owns s (r.projectRoot.join p))

theorem crosses_of_violation? {importer : Service} (registered : importer ∈ r.services) {i : Import}
    {v : BoundaryViolation} (h : r.violation? importer i = some v) : r.Crosses importer i v := by
  obtain ⟨s, found, h⟩ := Option.bind_eq_some_iff.1 h
  split at h
  · cases h
  · next other =>
    cases h
    refine ⟨registered, rfl, rfl, rfl, rfl, ?_⟩
    rw [importOwner?] at found
    split at found
    · next relative =>
      obtain ⟨p, collapsed, owner⟩ := Option.bind_eq_some_iff.1 found
      have owns := owns_of_owner? owner
      exact ⟨s, owns.registered, rfl, other, fun _ => ⟨p, collapsed, owns⟩⟩
    · next absolute =>
      obtain ⟨before, after, split, -⟩ := lastMaxBy_split found
      have reached : s ∈ r.services.filter fun s =>
          Target.containsRun (i.segments importer.language) s.rootSegments := by simp [split]
      exact ⟨s, (List.mem_filter.1 reached).1, rfl, other, fun relative => absurd relative absolute⟩

theorem violation?_of_climbs {importer : Service} {i : Import} (relative : i.isRelative = true)
    (climbs : Path.Climbs (i.place importer.language).components) : r.violation? importer i = none := by
  have nowhere : (i.place importer.language).collapse? = none := (Path.collapse?_eq_none_iff _).2 climbs
  rw [violation?, importOwner?, if_pos relative, nowhere]
  rfl

/-- The boundary report is made import by import: reports of parts of the scans are merged to that of
the whole, and the order of the scans and of the imports in them changes nothing but the writing of
paths. An import adds at most one violation, and one that climbs out of the project adds none. -/
theorem boundaries_compositional (r : Registry) :
    (∀ xs ys, r.boundaryViolations (xs ++ ys) =
      (r.boundaryViolations xs).merge (r.boundaryViolations ys) fun v w => (compare v w).isLE) ∧
    (∀ xs ys, Scan.Shuffled xs ys →
      List.Forall₂ BoundaryViolation.Same (r.boundaryViolations xs) (r.boundaryViolations ys)) ∧
    (∀ scans, (r.boundaryViolations scans).Pairwise (fun v w => (compare v w).isLE) ∧
      r.boundaryViolations scans ~ (Scan.importsOf scans).filterMap r.crossing? ∧
      boundariesJson (r.boundaryViolations scans) =
        .obj [("valid", .bool (r.boundaryViolations scans = [])),
          ("violations", .arr ((r.boundaryViolations scans).map BoundaryViolation.toJson))] ∧
      ∀ tree graph, (r.report tree { Checks.none with boundaries := true } scans graph).valid = true ↔
        r.boundaryViolations scans = []) ∧
    ∀ made : String × Import,
      (∀ v, r.crossing? made = some v →
        ∃ importer, r.find? made.1 = some importer ∧ r.Crosses importer made.2 v) ∧
      ∀ importer, r.find? made.1 = some importer → made.2.isRelative = true →
        Path.Climbs (made.2.place importer.language).components → r.crossing? made = none := by
  refine ⟨boundaryViolations_append, fun xs ys => boundaryViolations_shuffled, fun scans => ?_, ?_⟩
  · refine ⟨sortBy_pairwise _ _, ?_, ?_, fun tree graph => ?_⟩
    · rw [boundaryViolations_eq]
      exact sortBy_perm _ _
    · have empty : (r.boundaryViolations scans).isEmpty = decide (r.boundaryViolations scans = []) := by
        rw [Bool.eq_iff_iff, List.isEmpty_iff, decide_eq_true_iff]
      rw [boundariesJson, empty]
    · simp [Report.valid, report, Checks.none]
  · refine fun made => ⟨fun v crossing => ?_, fun importer found relative climbs => ?_⟩
    · obtain ⟨importer, found, violation⟩ := Option.bind_eq_some_iff.1 crossing
      exact ⟨importer, found, crosses_of_violation? (List.mem_of_find?_eq_some found) violation⟩
    · rw [crossing?, found, Option.bind_some, violation?_of_climbs relative climbs]

end Registry

/-- Imports of a file beside the library: one leads there, one leads out of the project. -/
def asideImport : Import := ⟨⟨"app/main.go"⟩, 2, "../lib/z", .plainImport⟩

def outwardImport : Import := ⟨⟨"app/main.go"⟩, 3, "../../lib/z", .plainImport⟩

/-- The last scan is of a service that is not registered. -/
def besideScans : List Scan :=
  [{ service := "app", imports := [outwardImport, moduleImport] },
    { service := "app", imports := [asideImport] }, { service := "old", imports := [asideImport] }]

theorem Registry.boundaries_compositional_beside :
    Scan.Shuffled besideScans besideScans.reverse ∧
      List.Forall₂ BoundaryViolation.Same ((besideRegistry "lib").boundaryViolations besideScans)
        ((besideRegistry "lib").boundaryViolations besideScans.reverse) ∧
      ((besideRegistry "lib").find? "app").isSome = true ∧ outwardImport.isRelative = true ∧
      Path.Climbs (outwardImport.place .go).components ∧
      (besideRegistry "lib").crossing? ("app", outwardImport) = none ∧
      (besideRegistry "lib").crossing? ("app", asideImport) =
        some ⟨"app", "lib", ⟨"app/main.go"⟩, 2, "../lib/z"⟩ ∧
      ∃ importer, (besideRegistry "lib").Crosses importer asideImport
        ⟨"app", "lib", ⟨"app/main.go"⟩, 2, "../lib/z"⟩ := by
  have shuffled : Scan.Shuffled besideScans besideScans.reverse :=
    ⟨_, (List.reverse_perm besideScans).symm, List.forall₂_same.2 fun s _ => ⟨rfl, .refl _⟩⟩
  have found : (besideRegistry "lib").find? "app" =
      some ⟨"app", .go, ⟨"/repo/app"⟩, ⟨"app"⟩, ⟨none, none, false⟩, [], [], []⟩ := by rfl
  have place : (outwardImport.place .go).components =
      [.name "app", .up, .up, .name "lib", .name "z"] := by decide +kernel
  have climbs : Path.Climbs (outwardImport.place .go).components := by
    rw [place]
    exact ⟨[.name "app", .up, .up], ⟨[.name "lib", .name "z"], rfl⟩, by decide⟩
  have crossing : (besideRegistry "lib").crossing? ("app", asideImport) =
      some ⟨"app", "lib", ⟨"app/main.go"⟩, 2, "../lib/z"⟩ := by decide +kernel
  obtain ⟨-, reordered, -, single⟩ := boundaries_compositional (besideRegistry "lib")
  obtain ⟨importer, -, crosses⟩ := (single ("app", asideImport)).1 _ crossing
  refine ⟨shuffled, reordered _ _ shuffled, by rw [found]; rfl, by cbv, climbs, ?_, crossing, importer,
    crosses⟩
  exact (single ("app", outwardImport)).2 _ found (by cbv) climbs

end ServiceMap
