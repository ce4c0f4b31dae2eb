import ServiceMap.Proofs.Accounts
import ServiceMap.Proofs.Paths
import ServiceMap.Proofs.Validity

/-! A scan of a subtree is the whole scan with all other files left out. What the checks look at gets
less that way and nothing new comes in, so a valid report stays valid. -/

namespace ServiceMap

/-- `part` holds the members of `whole` that come of a file that `keep` lets through, in the same
order. A member tells the path of its file below the project root. -/
def Kept {α : Type} (files : List Path) (projectRoot : Path) (keep : Path → Bool)
    (path : α → Option Path) (whole part : List α) : Prop :=
  ∃ sourced : List (Path × α),
    (∀ x ∈ sourced, x.1 ∈ files ∧ path x.2 = some (x.1.relativeTo projectRoot)) ∧
      whole = sourced.map Prod.snd ∧ part = (sourced.filter fun x => keep x.1).map Prod.snd

namespace Kept

variable {α : Type} {files : List Path} {projectRoot : Path} {keep : Path → Bool}
  {path : α → Option Path} {whole part : List α}

theorem of_flatMap {found : Path → List α}
    (own : ∀ f, ∀ a ∈ found f, path a = some (f.relativeTo projectRoot)) :
    Kept files projectRoot keep path (files.flatMap found) ((files.filter keep).flatMap found) := by
  refine ⟨files.flatMap fun f => (found f).map (Prod.mk f), ?_, ?_, ?_⟩
  · intro x hx
    obtain ⟨f, hf, hx⟩ := List.mem_flatMap.1 hx
    obtain ⟨a, ha, rfl⟩ := List.mem_map.1 hx
    exact ⟨hf, own f a ha⟩
  · simp only [List.map_flatMap, List.map_map]
    exact List.flatMap_congr fun f _ => (List.map_id _).symm
  · induction files with
    | nil => rfl
    | cons f files ih =>
      rw [List.flatMap_cons, List.filter_append, List.map_append, ← ih, List.filter_map, List.map_map,
        List.filter_cons]
      cases h : keep f <;> simp [Function.comp_def, h]

theorem sublist (h : Kept files projectRoot keep path whole part) : part.Sublist whole := by
  obtain ⟨sourced, -, rfl, rfl⟩ := h
  exact List.filter_sublist.map _

/-- Where all files are absolute, the path that a member tells says whether it is kept. -/
theorem eq_filter {subtree : Path}
    (h : Kept files projectRoot (fun f => f.isUnder subtree) path whole part)
    (absolute : ∀ f ∈ files, f.isAbsolute = true) :
    part = whole.filter fun a => (path a).any fun p => (projectRoot.join p).isUnder subtree := by
  obtain ⟨sourced, own, rfl, rfl⟩ := h
  rw [List.filter_map]
  refine congrArg _ (List.filter_congr fun x hx => ?_)
  obtain ⟨hf, told⟩ := own x hx
  have same : (projectRoot.join (x.1.relativeTo projectRoot)).components = x.1.components :=
    Path.components_join_relativeTo (.inl (absolute _ hf))
  simp [told, Path.isUnder, same]

end Kept

/-- The warnings of files that could not be read. -/
def Scan.unreadable (s : Scan) : List Warning := s.warnings.filter fun w => w.file?.isSome

/-- A scan of the files of a service below a subtree, beside a scan of all of them. -/
structure Scan.Restricts (part whole : Scan) (projectRoot subtree : Path) (files : List Path) : Prop where
  service_eq : part.service = whole.service
  calls : Kept files projectRoot (fun f => f.isUnder subtree) (fun c => some c.file) whole.calls part.calls
  imports : Kept files projectRoot (fun f => f.isUnder subtree) (fun i => some i.file) whole.imports
    part.imports
  unreadable : Kept files projectRoot (fun f => f.isUnder subtree) Warning.file? whole.unreadable
    part.unreadable
  skipped_iff : part.skipped = true ↔ files ≠ [] ∧ ∀ f ∈ files, f.isUnder subtree = false
  whole_not_skipped : whole.skipped = false

namespace Service

variable {s : Service} {tree : FileTree} {projectRoot : Path} {subtree : Option Path} {files : List Path}

/-- The files of a service that a scan reads. -/
def inScope (subtree : Option Path) (files : List Path) : List Path :=
  files.filter fun f => subtree.all f.isUnder

def fileScan (s : Service) (tree : FileTree) (projectRoot f : Path) : FileScan :=
  .ofFile tree projectRoot s.language f

/-- A scan holds what its files hold. Only the service of which nothing is read is marked. -/
theorem scan_eq (s : Service) (tree : FileTree) (projectRoot : Path) (subtree : Option Path)
    (files : List Path) :
    s.scan tree projectRoot subtree files =
      let read := Scan.ofFiles s.name ((inScope subtree files).map (s.fileScan tree projectRoot))
      { read with
        skipped := !files.isEmpty && (inScope subtree files).isEmpty
        warnings := if files.isEmpty then [.noSourceFiles s.name] else read.warnings } := by
  have found : s.filesRead tree projectRoot subtree files =
      (inScope subtree files).map (s.fileScan tree projectRoot) := rfl
  rw [scan, found]
  by_cases none : files = []
  · simp [none, inScope, Scan.ofFiles]
  · by_cases out : inScope subtree files = []
    · simp [none, out, Scan.ofFiles]
    · simp [none, out, Scan.ofFiles]

theorem scan_service : (s.scan tree projectRoot subtree files).service = s.name := by
  rw [scan_eq]
  rfl

theorem scan_calls : (s.scan tree projectRoot subtree files).calls =
    (inScope subtree files).flatMap fun f => (s.fileScan tree projectRoot f).calls := by
  rw [scan_eq]
  exact List.flatMap_map ..

theorem scan_imports : (s.scan tree projectRoot subtree files).imports =
    (inScope subtree files).flatMap fun f => (s.fileScan tree projectRoot f).imports := by
  rw [scan_eq]
  exact List.flatMap_map ..

theorem scan_skipped : (s.scan tree projectRoot subtree files).skipped = true ↔
    files ≠ [] ∧ inScope subtree files = [] := by
  rw [scan_eq]
  simp

/-- What a file holds carries the path of the file. -/
theorem file_of_mem_calls {f : Path} {c : CallSite} (h : c ∈ (s.fileScan tree projectRoot f).calls) :
    c.file = f.relativeTo projectRoot := by
  unfold fileScan FileScan.ofFile FileScan.calls at h
  cases read : FileScan.source tree f with
  | error reason => simp [read, Except.map] at h
  | ok source =>
    obtain ⟨x, -, rfl⟩ : ∃ x ∈ Finding.ofText _ _ source, _ = c := by
      simpa [read, Except.map, CallSite.extract] using h
    rfl

theorem file_of_mem_imports {f : Path} {i : Import} (h : i ∈ (s.fileScan tree projectRoot f).imports) :
    i.file = f.relativeTo projectRoot := by
  unfold fileScan FileScan.ofFile FileScan.imports at h
  cases read : FileScan.source tree f with
  | error reason => simp [read, Except.map] at h
  | ok source =>
    obtain ⟨x, -, rfl⟩ : ∃ x ∈ Finding.ofText _ _ source, _ = i := by
      simpa [read, Except.map, Import.extract] using h
    rfl

theorem file_of_warning? {f : FileScan} {w : Warning} (h : f.warning? s.name = some w) :
    w.file? = some f.relative := by
  unfold FileScan.warning? at h
  split at h
  · cases h
  · cases h
    rfl

theorem scan_unreadable : (s.scan tree projectRoot subtree files).unreadable =
    (inScope subtree files).flatMap fun f =>
      ((s.fileScan tree projectRoot f).warning? s.name).toList := by
  rw [scan_eq, Scan.unreadable]
  by_cases none : files = []
  · simp [none, inScope, Warning.file?]
  · have unreadable : ∀ w ∈ ((inScope subtree files).map (s.fileScan tree projectRoot)).filterMap
        (FileScan.warning? s.name), w.file?.isSome = true := by
      intro w hw
      obtain ⟨f, -, made⟩ := List.mem_filterMap.1 hw
      rw [file_of_warning? made]
      rfl
    simp only [Scan.ofFiles, List.isEmpty_iff, none, if_false]
    rw [List.filter_eq_self.2 unreadable, List.filterMap_eq_flatMap_toList, List.flatMap_map]

theorem inScope_none (files : List Path) : inScope none files = files := by simp [inScope]

/-- The scan of a subtree beside that of everything. -/
theorem scan_restricts (s : Service) (tree : FileTree) (projectRoot subtree : Path) (files : List Path) :
    (s.scan tree projectRoot (some subtree) files).Restricts (s.scan tree projectRoot none files)
      projectRoot subtree files where
  service_eq := by rw [scan_service, scan_service]
  calls := by
    rw [scan_calls, scan_calls, inScope_none]
    exact Kept.of_flatMap fun f c hc => congrArg some (file_of_mem_calls hc)
  imports := by
    rw [scan_imports, scan_imports, inScope_none]
    exact Kept.of_flatMap fun f i hi => congrArg some (file_of_mem_imports hi)
  unreadable := by
    rw [scan_unreadable, scan_unreadable, inScope_none]
    exact Kept.of_flatMap fun f w hw => file_of_warning? (Option.mem_toList.1 hw)
  skipped_iff := by
    rw [scan_skipped, inScope, List.filter_eq_nil_iff]
    simp
  whole_not_skipped := by
    rw [Bool.eq_false_iff, Ne, scan_skipped, inScope_none]
    exact fun h => h.1 h.2

end Service

/-- With fewer calls there are fewer edges, and fewer APIs in them. -/
theorem Draft.edges_mono {d e : Draft} (r : Registry) (fewer : ∀ o ∈ d.calls, o ∈ e.calls) :
    ∀ x ∈ (d.graph r).edges, ∃ y ∈ (e.graph r).edges,
      y.consumer = x.consumer ∧ y.provider = x.provider ∧ ∀ a ∈ x.apis.toList, a ∈ y.apis.toList := by
  have links : ∀ l ∈ (d.resolved r).filterMap Outgoing.link?,
      l ∈ (e.resolved r).filterMap Outgoing.link? := by
    intro l hl
    obtain ⟨_, ho, made⟩ := List.mem_filterMap.1 hl
    obtain ⟨o, given, rfl⟩ := List.mem_map.1 ho
    exact List.mem_filterMap.2 ⟨_, List.mem_map_of_mem (fewer o given), made⟩
  intro x hx
  rw [graph_edges] at hx ⊢
  obtain ⟨l, hl, rfl⟩ := Edge.mem_ofLinks.1 hx
  refine ⟨_, Edge.mem_ofLinks.2 ⟨l, links l hl, rfl⟩, rfl, rfl, fun a ha => ?_⟩
  exact Edge.mem_between.2 (links _ (Edge.mem_between.1 ha))

namespace Registry

variable {r : Registry} {tree : FileTree} {sources : List (List Path)} {subtree : Option Path}

theorem mem_scan {scan : Scan} : scan ∈ r.scan tree sources subtree ↔
    ∃ s files, (s, files) ∈ r.services.zip sources ∧ s.scan tree r.projectRoot subtree files = scan := by
  simp [Registry.scan]

theorem zip_scan (r : Registry) (tree : FileTree) (sources : List (List Path)) (subtree : Option Path) :
    r.services.zip (r.scan tree sources subtree) =
      (r.services.zip sources).map fun x => (x.1, x.1.scan tree r.projectRoot subtree x.2) := by
  unfold Registry.scan
  induction r.services generalizing sources with
  | nil => rfl
  | cons s services ih =>
    cases sources with
    | nil => rfl
    | cons files sources => simp [ih]

/-- Every call of a scan of a subtree is one of the whole scan. -/
theorem calls_of_subtree (subtree : Path) :
    ∀ o ∈ (Draft.ofScans (r.scan tree sources (some subtree))).calls,
      o ∈ (Draft.ofScans (r.scan tree sources none)).calls := by
  have gathered : ∀ scans o, o ∈ (Draft.ofScans scans).calls ↔
      ∃ scan ∈ scans, ∃ c ∈ scan.calls, ⟨scan.service, c⟩ = o := by
    intro scans o
    simp [Draft.ofScans_eq_run, Draft.Step.calls, List.mem_flatMap]
  intro o ho
  obtain ⟨_, hscan, c, hc, rfl⟩ := (gathered _ _).1 ho
  obtain ⟨s, files, hs, rfl⟩ := mem_scan.1 hscan
  have restricts := s.scan_restricts tree r.projectRoot subtree files
  exact (gathered _ _).2 ⟨_, mem_scan.2 ⟨s, files, hs, rfl⟩, c, restricts.calls.sublist.subset hc,
    congrArg (Outgoing.mk · c) restricts.service_eq.symm⟩

/-- A check of a subtree finds nothing where a check of everything finds nothing. -/
theorem report_valid_of_subtree (subtree : Path) (checks : Checks)
    (valid : (r.report tree checks (r.scan tree sources none)
      (.ofScans r (r.scan tree sources none))).valid = true) :
    (r.report tree checks (r.scan tree sources (some subtree))
      (.ofScans r (r.scan tree sources (some subtree)))).valid = true := by
  have depends : ∀ a b, Depends (Graph.ofScans r (r.scan tree sources (some subtree))).edges a b →
      Depends (Graph.ofScans r (r.scan tree sources none)).edges a b := by
    rintro a b ⟨ne, x, hx, rfl, rfl⟩
    obtain ⟨y, hy, consumer, provider, -⟩ := Draft.edges_mono r (calls_of_subtree subtree) x hx
    exact ⟨ne, y, hy, consumer, provider⟩
  rw [report_valid_iff] at valid ⊢
  obtain ⟨declared, acyclic, within, matching⟩ := valid
  refine ⟨fun on a b h => declared on a b (depends a b h), fun on a around => ?_,
    fun on scan hscan importer found i hi => ?_, fun on s scan hs => ?_⟩
  · exact acyclic on a (Relation.TransGen.mono depends _ _ around)
  · obtain ⟨s, files, hs, rfl⟩ := mem_scan.1 hscan
    have restricts := s.scan_restricts tree r.projectRoot subtree files
    exact within on _ (mem_scan.2 ⟨s, files, hs, rfl⟩) importer (restricts.service_eq ▸ found) i
      (restricts.imports.sublist.subset hi)
  · rw [zip_scan] at hs
    obtain ⟨⟨t, files⟩, listed, eq⟩ := List.mem_map.1 hs
    obtain ⟨rfl, rfl⟩ := Prod.mk.inj eq
    have restricts := t.scan_restricts tree r.projectRoot subtree files
    have whole := matching on t _ (by rw [zip_scan]; exact List.mem_map_of_mem listed)
    -- a service that is skipped is not looked at, and the others are looked at in the same tree
    unfold LanguageReport.mismatch? at whole ⊢
    rw [restricts.whole_not_skipped, Bool.false_or] at whole
    split
    · rfl
    · next out =>
      rw [Bool.or_eq_true, not_or] at out
      rwa [if_neg out.2] at whole

/-- Asking for a subtree leaves files out and does nothing else: each service keeps what its files
below the subtree hold, the graph loses edges and APIs only, and no check fails that did not. -/
theorem scan_of_subtree (r : Registry) (tree : FileTree) (sources : List (List Path)) (subtree : Path) :
    let whole := r.scan tree sources none
    let part := r.scan tree sources (some subtree)
    let below (p : Path) := (r.projectRoot.join p).isUnder subtree
    (part.length = whole.length ∧
      ∀ (i : Nat) (s : Service) (files : List Path), r.services[i]? = some s → sources[i]? = some files →
        ∃ p w : Scan, part[i]? = some p ∧ whole[i]? = some w ∧ w.service = s.name ∧
          p.Restricts w r.projectRoot subtree files ∧
          ((∀ f ∈ files, f.isAbsolute = true) →
            p.calls = w.calls.filter (fun c => below c.file) ∧
            p.imports = w.imports.filter (fun i => below i.file) ∧
            p.unreadable = w.unreadable.filter fun w => w.file?.any below)) ∧
      (∀ e ∈ (Graph.ofScans r part).edges, ∃ f ∈ (Graph.ofScans r whole).edges,
        f.consumer = e.consumer ∧ f.provider = e.provider ∧ ∀ a ∈ e.apis.toList, a ∈ f.apis.toList) ∧
      ∀ checks, (r.report tree checks whole (.ofScans r whole)).valid = true →
        (r.report tree checks part (.ofScans r part)).valid = true := by
  intro whole part below
  refine ⟨⟨by simp [whole, part, Registry.scan], fun i s files hs hfiles => ?_⟩,
    Draft.edges_mono r (calls_of_subtree subtree), fun checks => report_valid_of_subtree subtree checks⟩
  have at_ : ∀ sub, (r.scan tree sources sub)[i]? = some (s.scan tree r.projectRoot sub files) := by
    intro sub
    have both : (r.services.zip sources)[i]? = some (s, files) :=
      List.getElem?_zip_eq_some.2 ⟨hs, hfiles⟩
    rw [Registry.scan, List.getElem?_map, both]
    rfl
  have restricts := s.scan_restricts tree r.projectRoot subtree files
  refine ⟨_, _, at_ _, at_ _, s.scan_service, restricts, fun absolute => ⟨?_, ?_, ?_⟩⟩
  · simpa using restricts.calls.eq_filter absolute
  · simpa using restricts.imports.eq_filter absolute
  · exact restricts.unreadable.eq_filter absolute

end Registry

/-- Two services, of which the first calls the second. -/
def shopRegistry : Registry where
  projectRoot := ⟨"/"⟩
  services := [⟨"shop", .go, ⟨"/shop"⟩, ⟨"shop"⟩, ⟨none, none, false⟩, [], [], [⟨"stock", .required⟩]⟩,
    ⟨"stock", .go, ⟨"/stock"⟩, ⟨"stock"⟩, ⟨none, none, false⟩, ["items"], [], []⟩]

def shopTree : FileTree :=
  ⟨.dir [("shop", .dir [("a.go", .file "http.Get(\"/items\")".toUTF8)]),
    ("stock", .dir [("b.go", .file "import \"./c\"".toUTF8), ("c.go", .file ⟨#[0xFF]⟩)])]⟩

def shopSources : List (List Path) := [[⟨"/shop/a.go"⟩], [⟨"/stock/b.go"⟩, ⟨"/stock/c.go"⟩]]

theorem Registry.scan_of_subtree_shop :
    let whole := shopRegistry.scan shopTree shopSources none
    let part := shopRegistry.scan shopTree shopSources (some ⟨"/stock"⟩)
    let checks : Checks := { Checks.all with polyglot := false }
    (shopRegistry.report shopTree checks whole (.ofScans shopRegistry whole)).valid = true ∧
      (shopRegistry.report shopTree checks part (.ofScans shopRegistry part)).valid = true ∧
      part.map Scan.skipped = [true, false] ∧
      ∃ p w : Scan, part[1]? = some p ∧ whole[1]? = some w ∧
        p.Restricts w ⟨"/"⟩ ⟨"/stock"⟩ [⟨"/stock/b.go"⟩, ⟨"/stock/c.go"⟩] ∧
        p.imports = w.imports.filter fun i => ((⟨"/"⟩ : Path).join i.file).isUnder ⟨"/stock"⟩ := by
  intro whole part checks
  obtain ⟨⟨-, services⟩, -, stays⟩ := scan_of_subtree shopRegistry shopTree shopSources ⟨"/stock"⟩
  have valid : (shopRegistry.report shopTree checks whole (.ofScans shopRegistry whole)).valid = true := by
    cbv
  have skipped : part.map Scan.skipped = [true, false] := by cbv
  obtain ⟨p, w, hp, hw, -, restricts, filtered⟩ := services 1 _ _ rfl rfl
  have absolute : ∀ f ∈ [(⟨"/stock/b.go"⟩ : Path), ⟨"/stock/c.go"⟩], f.isAbsolute = true := by decide
  exact ⟨valid, stays checks valid, skipped, p, w, hp, hw, restricts, (filtered absolute).2.1⟩

end ServiceMap
