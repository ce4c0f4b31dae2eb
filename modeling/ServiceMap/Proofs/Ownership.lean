import Mathlib
import ServiceMap.Proofs.Boundaries
import ServiceMap.Proofs.Registry
import ServiceMap.Proofs.Sources

/-! Which service a place belongs to, by its root, and which service a file belongs to, by discovery.
The two agree unless another root stands deeper: then that one has the place, and an import that
leads there crosses a boundary though the importing service has the file. -/

namespace ServiceMap

section LastMax

variable {α : Type} {key : α → Nat} {l : List α} {a : α}

theorem lastMaxBy_split (h : lastMaxBy key l = some a) : ∃ before after, l = before ++ a :: after ∧
    (∀ b ∈ before, key b ≤ key a) ∧ ∀ b ∈ after, key b < key a := by
  induction l generalizing a with
  | nil => cases h
  | cons c l ih =>
    rw [lastMaxBy] at h
    cases rest : lastMaxBy key l with
    | none =>
      have empty : l = [] := by
        cases l with
        | nil => rfl
        | cons d l =>
          rw [lastMaxBy] at rest
          split at rest
          · split at rest <;> cases rest
          · cases rest
      obtain rfl : c = a := by simpa [rest] using h
      exact ⟨[], l, rfl, by simp, by simp [empty]⟩
    | some b =>
      obtain ⟨before, after, rfl, below, above⟩ := ih rest
      simp only [rest] at h
      split at h
      · next le =>
        cases h
        exact ⟨c :: before, after, rfl, List.forall_mem_cons.2 ⟨le, below⟩, above⟩
      · next lt =>
        cases h
        refine ⟨[], _, rfl, by simp, fun d hd => ?_⟩
        rcases List.mem_append.1 hd with hd | hd
        · exact (below d hd).trans_lt (Nat.lt_of_not_le lt)
        · rcases List.mem_cons.1 hd with rfl | hd
          · exact Nat.lt_of_not_le lt
          · exact (above d hd).trans (Nat.lt_of_not_le lt)

theorem lastMaxBy_append_cons {before after : List α} (below : ∀ b ∈ before, key b ≤ key a)
    (above : ∀ b ∈ after, key b < key a) : lastMaxBy key (before ++ a :: after) = some a := by
  induction before with
  | nil =>
    rw [List.nil_append, lastMaxBy]
    cases rest : lastMaxBy key after with
    | none => rfl
    | some b =>
      obtain ⟨_, _, eq, -, -⟩ := lastMaxBy_split rest
      have lt : key b < key a := above b (by simp [eq])
      exact if_neg (Nat.not_le_of_lt lt)
  | cons c before ih =>
    obtain ⟨le, below⟩ := List.forall_mem_cons.1 below
    rw [List.cons_append, lastMaxBy, ih below]
    exact if_pos le

theorem lastMaxBy_isSome (h : a ∈ l) : ∃ b, lastMaxBy key l = some b := by
  cases l with
  | nil => cases h
  | cons c l =>
    rw [lastMaxBy]
    split
    · split <;> exact ⟨_, rfl⟩
    · exact ⟨_, rfl⟩

end LastMax

namespace Registry

variable {r : Registry} {p q : Path} {s owner : Service}

theorem owner?_congr (same : p.components = q.components) : r.owner? p = r.owner? q := by
  simp only [owner?, Service.contains, Path.isUnder, same]

/-- The owner of a place contains it, and every root that contains the place stands above the owner's
or is the same. -/
theorem owner?_deepest (h : r.owner? p = some owner) :
    owner ∈ r.services ∧ owner.contains p = true ∧
      ∀ t ∈ r.services, t.contains p = true → t.root.components <+: owner.root.components := by
  obtain ⟨before, after, eq, below, above⟩ := lastMaxBy_split h
  have mem : ∀ t, t ∈ r.services ∧ t.contains p = true ↔ t ∈ before ++ owner :: after := fun t => by
    rw [← eq, List.mem_filter]
  obtain ⟨registered, contains⟩ := (mem owner).2 (by simp)
  refine ⟨registered, contains, fun t ht around => ?_⟩
  have depth : t.root.components.length ≤ owner.root.components.length := by
    rcases List.mem_append.1 ((mem t).1 ⟨ht, around⟩) with ht | ht
    · exact below t ht
    · rcases List.mem_cons.1 ht with rfl | ht
      · exact Nat.le_refl _
      · exact (above t ht).le
  exact List.prefix_of_prefix_length_le (Path.isUnder_iff.1 around) (Path.isUnder_iff.1 contains) depth

/-- Behind the owner no service has a root around the place that is as deep. -/
theorem owner?_split (h : r.owner? p = some owner) : ∃ front back, r.services = front ++ owner :: back ∧
    ∀ t ∈ back, t.contains p = true → t.root.components.length < owner.root.components.length := by
  obtain ⟨before, after, around, -, above⟩ := lastMaxBy_split h
  obtain ⟨front, back, split, -, around⟩ := List.filter_eq_append_iff.1 around
  obtain ⟨between, rest, rfl, -, -, rfl⟩ := List.filter_eq_cons_iff.1 around
  refine ⟨front ++ between, rest, by simp [split], fun t ht inside => ?_⟩
  exact above t (List.mem_filter.2 ⟨ht, inside⟩)

/-- Where a later service has a root around the place that is as deep as any, the owner comes later. -/
theorem owner?_behind {before after : List Service} (place : r.services = before ++ s :: after)
    (around : s.contains p = true) (owns : r.owner? p = some owner)
    (level : owner.root.components.length = s.root.components.length)
    (twin : ∃ t ∈ after, t.contains p = true ∧ t.root.components.length = s.root.components.length) :
    ∃ between back, after = between ++ owner :: back ∧
      ∀ t ∈ back, t.contains p = true → t.root.components.length < owner.root.components.length := by
  obtain ⟨front, back, split, behind⟩ := owner?_split owns
  obtain ⟨t, ht, inside, depth⟩ := twin
  -- neither `s` nor the later service can stand behind the owner
  have t_back : t ∉ back := fun mem => by
    have := behind t mem inside
    omega
  have s_back : s ∉ back := fun mem => by
    have := behind s mem around
    omega
  rcases List.append_eq_append_iff.1 (place.symm.trans split) with ⟨between, -, rest⟩ | ⟨between, -, rest⟩
  · cases between with
    | nil =>
      obtain ⟨-, rfl⟩ := List.cons.inj rest
      exact absurd ht t_back
    | cons c between =>
      obtain ⟨-, rest⟩ := List.cons.inj rest
      exact ⟨between, back, rest, behind⟩
  · cases between with
    | nil =>
      obtain ⟨-, rfl⟩ := List.cons.inj rest
      exact absurd ht t_back
    | cons c between =>
      obtain ⟨-, rfl⟩ := List.cons.inj rest
      exact absurd (by simp) s_back

theorem exists_owner? (hs : s ∈ r.services) (around : s.contains p = true) :
    ∃ owner, r.owner? p = some owner :=
  lastMaxBy_isSome (List.mem_filter.2 ⟨hs, around⟩)

/-- Of two roots of the same depth, that of the later service counts. -/
theorem owner?_of_deepest {before after : List Service} (place : r.services = before ++ s :: after)
    (around : s.contains p = true)
    (below : ∀ t ∈ before, t.contains p = true → t.root.components.length ≤ s.root.components.length)
    (above : ∀ t ∈ after, t.contains p = true → t.root.components.length < s.root.components.length) :
    r.owner? p = some s := by
  have split : (r.services.filter fun s => s.contains p) =
      before.filter (fun s => s.contains p) ++ s :: after.filter fun s => s.contains p := by
    simp [place, around]
  rw [owner?, split]
  refine lastMaxBy_append_cons (fun t ht => ?_) (fun t ht => ?_)
  · exact below t (List.mem_filter.1 ht).1 (List.mem_filter.1 ht).2
  · exact above t (List.mem_filter.1 ht).1 (List.mem_filter.1 ht).2

/-- A relative import of a service that names the place of a file. -/
def LeadsTo (r : Registry) (s : Service) (i : Import) (f : Path) : Prop :=
  i.isRelative = true ∧
    ∃ p, (i.place s.language).collapse? = some p ∧ (r.projectRoot.join p).components = f.components

theorem violation?_of_leadsTo {i : Import} (leads : r.LeadsTo s i p) (owns : r.owner? p = some owner) :
    r.violation? s i =
      if owner.name = s.name then none else some ⟨s.name, owner.name, i.file, i.line, i.target⟩ := by
  obtain ⟨relative, q, collapsed, same⟩ := leads
  have found : r.importOwner? s.language i = some owner := by
    rw [importOwner?, if_pos relative, collapsed, Option.bind_some, owner?_congr same, owns]
  rw [violation?, found, Option.bind_some]

/-- The service that discovery gives a file to, beside the one that owns its place. The owner is a
service with the deepest root around the file, and no other service lists the file. The two are
one, and imports that lead to the file cross no boundary, when no root around the file is deeper and
none as deep comes later; they differ, and such imports are reported, when a root around the file is
deeper, and also when none is but later services have the same root: the last of them is the owner. -/
theorem owner_of_discovered {settings : Settings} (built : ofSettings settings = .ok r) {tree : FileTree}
    (named : tree.root.named = true) {index : List (List Path)} (discovered : r.sources tree = .ok index)
    {before after : List Service} (place : r.services = before ++ s :: after) {files : List Path}
    (listed : index[before.length]? = some files) {f : Path} (hf : f ∈ files) :
    let depth (t : Service) := t.root.components.length
    ∃ owner, r.owner? f = some owner ∧ owner ∈ r.services ∧ owner.contains f = true ∧
      (∀ t ∈ r.services, t.contains f = true → t.root.components <+: owner.root.components) ∧
      (owner ≠ s → ∀ g ∈ owner.files tree, g.components ≠ f.components) ∧
      ((∀ t ∈ before, t.contains f = true → depth t ≤ depth s) →
        (∀ t ∈ after, t.contains f = true → depth t < depth s) →
        owner = s ∧ ∀ front (scan : Scan) back is i js, scan.service = s.name → r.LeadsTo s i f →
          r.boundaryViolations (front ++ { scan with imports := is ++ i :: js } :: back) =
            r.boundaryViolations (front ++ { scan with imports := is ++ js } :: back)) ∧
      ((∃ t ∈ r.services, t.contains f = true ∧ depth s < depth t) →
        depth s < depth owner ∧ ∀ scans, ∀ scan ∈ scans, scan.service = s.name →
          ∀ i ∈ scan.imports, r.LeadsTo s i f →
            ⟨s.name, owner.name, i.file, i.line, i.target⟩ ∈ r.boundaryViolations scans) ∧
      ((∀ t ∈ r.services, t.contains f = true → depth t ≤ depth s) →
        (∃ t ∈ after, t.contains f = true ∧ depth t = depth s) →
        owner.root.components = s.root.components ∧
          (∃ between back, after = between ++ owner :: back ∧
            ∀ t ∈ back, t.contains f = true → depth t < depth owner) ∧
          ∀ scans, ∀ scan ∈ scans, scan.service = s.name → ∀ i ∈ scan.imports, r.LeadsTo s i f →
            ⟨s.name, owner.name, i.file, i.line, i.target⟩ ∈ r.boundaryViolations scans) := by
  intro depth
  obtain rfl : index = r.services.map fun s => s.files tree := (files_of_sources discovered).1
  have registered : s ∈ r.services := by rw [place]; simp
  obtain rfl : s.files tree = files := by simpa [place] using listed
  have around : s.contains f = true := s.contains_of_mem_files named hf
  obtain ⟨owner, owns⟩ := exists_owner? registered around
  obtain ⟨there, contains, deepest⟩ := owner?_deepest owns
  have found : r.find? s.name = some s := find?_of_mem built registered
  have reported (differ : owner.name ≠ s.name) : ∀ scans, ∀ scan ∈ scans, scan.service = s.name →
      ∀ i ∈ scan.imports, r.LeadsTo s i f →
        ⟨s.name, owner.name, i.file, i.line, i.target⟩ ∈ r.boundaryViolations scans := by
    intro scans scan hscan by_ i hi leads
    refine mem_boundaryViolations.2 ⟨scan, hscan, s, by_ ▸ found, i, hi, ?_⟩
    rw [violation?_of_leadsTo leads owns, if_neg differ]
  refine ⟨owner, owns, there, contains, deepest, fun other => ?_, fun below above => ?_, ?_, ?_⟩
  · exact fun g hg => apart_of_sources discovered there registered other g hg f hf
  · have agree : owner = s := Option.some.inj (owns.symm.trans (owner?_of_deepest place around below above))
    refine ⟨agree, fun front scan back is i js by_ leads => ?_⟩
    refine boundaryViolations_drop (s := s) (by_ ▸ found) ?_
    rw [violation?_of_leadsTo leads owns, if_pos (by rw [agree])]
  · rintro ⟨t, ht, inside, deeper⟩
    have lower : depth s < depth owner := deeper.trans_le (deepest t ht inside).length_le
    have differ : owner.name ≠ s.name := fun same => by
      rw [eq_of_name_eq built there registered same] at lower
      exact Nat.lt_irrefl _ lower
    exact ⟨lower, reported differ⟩
  · intro highest twin
    have under := deepest s registered around
    have level : depth owner = depth s := Nat.le_antisymm (highest owner there contains) under.length_le
    obtain ⟨between, back, later, behind⟩ := owner?_behind place around owns level twin
    have names := ofSettings_nodup built
    rw [place, later] at names
    have differ : owner.name ≠ s.name := by
      simp only [List.map_append, List.map_cons, List.nodup_append, List.nodup_cons] at names
      intro same
      exact names.2.1.1 (by simp [same])
    exact ⟨(under.eq_of_length level.symm).symm, ⟨between, back, later, behind⟩, reported differ⟩

end Registry

/-- A service in one language, and inside its root another in a second language. -/
def nestedSettings : Settings where
  projectRoot := ⟨"/"⟩
  configPath := ⟨"/.crossdeps.toml"⟩
  checks := .all
  exclude := []
  includeTests := true
  services := [⟨"web", "ts", "a", [], [], [], [], []⟩, ⟨"job", "py", "a/b", [], [], [], [], []⟩]

def outerService : Service :=
  ⟨"web", .typescript, ⟨"/a"⟩, ⟨"a"⟩, ⟨none, none, true⟩, [], [], []⟩

def innerService : Service :=
  ⟨"job", .python, ⟨"/a/b"⟩, ⟨"a/b"⟩, ⟨none, none, true⟩, [], [], []⟩

def nestedRegistry : Registry := ⟨⟨"/"⟩, [outerService, innerService]⟩

def innerEntries : List (String × Node) := [("m.py", .file ⟨#[]⟩), ("u.ts", .file ⟨#[]⟩)]

/-- Outside stands a file of the first service that imports another of its files, which is inside. -/
def outerEntries : List (String × Node) :=
  [("b", .dir innerEntries), ("i.ts", .file "import './b/u.ts'".toUTF8)]

def nestedTree : FileTree := ⟨.dir [("a", .dir outerEntries)]⟩

def nestedSources : List (List Path) := [[⟨"/a/b/u.ts"⟩, ⟨"/a/i.ts"⟩], [⟨"/a/b/m.py"⟩]]

theorem nested_built : Registry.ofSettings nestedSettings = .ok nestedRegistry := by cbv

theorem nested_named : nestedTree.root.named = true := by cbv

theorem nested_unruled : ∀ dir ∈ [(⟨"/"⟩ : Path), ⟨"/a"⟩, ⟨"/a/b"⟩],
    IgnoreLevel.ofDir nestedTree dir = ⟨[], [], [], false⟩ := by
  intro dir hdir
  refine IgnoreLevel.ofDir_of_absent fun name hname => ?_
  simp only [List.mem_cons, List.not_mem_nil, or_false] at hdir hname
  rcases hdir with rfl | rfl | rfl <;> rcases hname with rfl | rfl | rfl | rfl <;>
    simp [Path.join, Path.isAbsolute] <;> cbv

theorem walk_outer : nestedTree.walk ⟨"/a"⟩ = [⟨"/a/b/m.py"⟩, ⟨"/a/b/u.ts"⟩, ⟨"/a/i.ts"⟩] := by
  have there : nestedTree.resolve ⟨"/a"⟩ = .ok (["a"], .dir outerEntries) := by cbv
  have above : IgnoreChain.above nestedTree ["a"] = [(.ofDir nestedTree ⟨"/"⟩, ["a"])] := rfl
  have inner : (⟨"/a"⟩ : Path).join ⟨"b"⟩ = ⟨"/a/b"⟩ := by simp [Path.join, Path.isAbsolute]
  rw [FileTree.walk, there]
  simp only [above, outerEntries, innerEntries, walkChildren, walkNode, inner,
    nested_unruled ⟨"/"⟩ (by simp), nested_unruled ⟨"/a"⟩ (by simp), nested_unruled ⟨"/a/b"⟩ (by simp)]
  cbv

theorem walk_inner : nestedTree.walk ⟨"/a/b"⟩ = [⟨"/a/b/m.py"⟩, ⟨"/a/b/u.ts"⟩] := by
  have there : nestedTree.resolve ⟨"/a/b"⟩ = .ok (["a", "b"], .dir innerEntries) := by cbv
  have above : IgnoreChain.above nestedTree ["a", "b"] =
      [(.ofDir nestedTree ⟨"/a"⟩, ["b"]), (.ofDir nestedTree ⟨"/"⟩, ["a", "b"])] := rfl
  rw [FileTree.walk, there]
  simp only [above, nested_unruled ⟨"/"⟩ (by simp), nested_unruled ⟨"/a"⟩ (by simp),
    nested_unruled ⟨"/a/b"⟩ (by simp)]
  cbv

theorem files_outer : outerService.files nestedTree = [⟨"/a/b/u.ts"⟩, ⟨"/a/i.ts"⟩] := by
  have dir : nestedTree.isDir outerService.root = true := by cbv
  have walk : nestedTree.walk outerService.root = _ := walk_outer
  have owned : [(⟨"/a/b/m.py"⟩ : Path), ⟨"/a/b/u.ts"⟩, ⟨"/a/i.ts"⟩].filter
      (outerService.selector.selects outerService.language outerService.root) =
        [⟨"/a/b/u.ts"⟩, ⟨"/a/i.ts"⟩] := by cbv
  rw [Service.files_of_isDir dir, walk, owned]
  cbv

theorem files_inner : innerService.files nestedTree = [⟨"/a/b/m.py"⟩] := by
  have dir : nestedTree.isDir innerService.root = true := by cbv
  have walk : nestedTree.walk innerService.root = _ := walk_inner
  have owned : [(⟨"/a/b/m.py"⟩ : Path), ⟨"/a/b/u.ts"⟩].filter
      (innerService.selector.selects innerService.language innerService.root) =
        [⟨"/a/b/m.py"⟩] := by cbv
  rw [Service.files_of_isDir dir, walk, owned]
  cbv

theorem nested_discovered : nestedRegistry.sources nestedTree = .ok nestedSources := by
  have first : Sources.clashOf? [] outerService [⟨"/a/b/u.ts"⟩, ⟨"/a/i.ts"⟩] = none := by cbv
  have second : Sources.clashOf? [(outerService, [⟨"/a/b/u.ts"⟩, ⟨"/a/i.ts"⟩])] innerService
      [⟨"/a/b/m.py"⟩] = none := by cbv
  simp [Registry.sources, Sources.ofRegistry, nestedRegistry, Sources.add, files_outer, files_inner, first,
    second, Sources.files, nestedSources]

/-- The import of a service that names its own file inside the root of the other. -/
def inwardImport : Import := ⟨⟨"a/i.ts"⟩, 1, "./b/u.ts", .plainImport⟩

theorem nested_leadsTo : nestedRegistry.LeadsTo outerService inwardImport ⟨"/a/b/u.ts"⟩ := by
  have dir : (⟨"a/i.ts"⟩ : Path).parent? = some ⟨"a"⟩ := by cbv
  have place : inwardImport.place .typescript = ⟨"a/./b/u.ts"⟩ := by
    simp [Import.place, dir, inwardImport, Path.join, Path.isAbsolute]
  refine ⟨by cbv, ⟨"a/b/u.ts"⟩, ?_, ?_⟩
  · rw [show outerService.language = .typescript from rfl, place]
    cbv
  · simp [nestedRegistry, Path.join, Path.isAbsolute]

/-- The import of a service inside the root of the other that names a file outside. -/
def parentImport : Import := ⟨⟨"a/b/u.ts"⟩, 1, "../i.ts", .plainImport⟩

theorem nested_leadsOut : nestedRegistry.LeadsTo outerService parentImport ⟨"/a/i.ts"⟩ := by
  have dir : (⟨"a/b/u.ts"⟩ : Path).parent? = some ⟨"a/b"⟩ := by cbv
  have place : parentImport.place .typescript = ⟨"a/b/../i.ts"⟩ := by
    simp [Import.place, dir, parentImport, Path.join, Path.isAbsolute]
  refine ⟨by cbv, ⟨"a/i.ts"⟩, ?_, ?_⟩
  · rw [show outerService.language = .typescript from rfl, place]
    cbv
  · simp [nestedRegistry, Path.join, Path.isAbsolute]

/-- A service in the root of the first. -/
def twinService : Service :=
  ⟨"job", .python, ⟨"/a"⟩, ⟨"a"⟩, ⟨none, none, true⟩, [], [], []⟩

def twinSettings : Settings :=
  { nestedSettings with
    services := [⟨"web", "ts", "a", [], [], [], [], []⟩, ⟨"job", "py", "a", [], [], [], [], []⟩] }

def twinRegistry : Registry := ⟨⟨"/"⟩, [outerService, twinService]⟩

theorem twin_built : Registry.ofSettings twinSettings = .ok twinRegistry := by cbv

theorem files_twin : twinService.files nestedTree = [⟨"/a/b/m.py"⟩] := by
  have dir : nestedTree.isDir twinService.root = true := by cbv
  have walk : nestedTree.walk twinService.root = _ := walk_outer
  have owned : [(⟨"/a/b/m.py"⟩ : Path), ⟨"/a/b/u.ts"⟩, ⟨"/a/i.ts"⟩].filter
      (twinService.selector.selects twinService.language twinService.root) = [⟨"/a/b/m.py"⟩] := by cbv
  rw [Service.files_of_isDir dir, walk, owned]
  cbv

theorem twin_discovered : twinRegistry.sources nestedTree = .ok nestedSources := by
  have first : Sources.clashOf? [] outerService [⟨"/a/b/u.ts"⟩, ⟨"/a/i.ts"⟩] = none := by cbv
  have second : Sources.clashOf? [(outerService, [⟨"/a/b/u.ts"⟩, ⟨"/a/i.ts"⟩])] twinService
      [⟨"/a/b/m.py"⟩] = none := by cbv
  simp [Registry.sources, Sources.ofRegistry, twinRegistry, Sources.add, files_outer, files_twin, first,
    second, Sources.files, nestedSources]

/-- One file of the outer service stands in the root of the inner one and the other does not; and
where the second service has the root of the first, that file belongs to the second, too. -/
theorem Registry.owner_of_discovered_nested :
    Registry.ofSettings nestedSettings = .ok nestedRegistry ∧ nestedTree.root.named = true ∧
      nestedRegistry.sources nestedTree = .ok nestedSources ∧
      nestedRegistry.LeadsTo outerService inwardImport ⟨"/a/b/u.ts"⟩ ∧
      (∃ owner, nestedRegistry.owner? ⟨"/a/b/u.ts"⟩ = some owner ∧ 2 < owner.root.components.length ∧
        ⟨"web", owner.name, ⟨"a/i.ts"⟩, 1, "./b/u.ts"⟩ ∈
          nestedRegistry.boundaryViolations [{ service := "web", imports := [inwardImport] }]) ∧
      nestedRegistry.LeadsTo outerService parentImport ⟨"/a/i.ts"⟩ ∧
      nestedRegistry.owner? ⟨"/a/i.ts"⟩ = some outerService ∧
      nestedRegistry.boundaryViolations [{ service := "web", imports := [parentImport, inwardImport] }] =
        nestedRegistry.boundaryViolations [{ service := "web", imports := [inwardImport] }] ∧
      Registry.ofSettings twinSettings = .ok twinRegistry ∧
      twinRegistry.sources nestedTree = .ok nestedSources ∧
      ∃ owner, twinRegistry.owner? ⟨"/a/i.ts"⟩ = some owner ∧
        owner.root.components = outerService.root.components ∧
        ⟨"web", owner.name, ⟨"a/b/u.ts"⟩, 1, "../i.ts"⟩ ∈
          twinRegistry.boundaryViolations [{ service := "web", imports := [parentImport] }] := by
  have place : nestedRegistry.services = [] ++ outerService :: [innerService] := rfl
  have twins : twinRegistry.services = [] ++ outerService :: [twinService] := rfl
  have listed : nestedSources[([] : List Service).length]? = some [⟨"/a/b/u.ts"⟩, ⟨"/a/i.ts"⟩] := rfl
  have inner : (⟨"/a/b/u.ts"⟩ : Path) ∈ [(⟨"/a/b/u.ts"⟩ : Path), ⟨"/a/i.ts"⟩] := by simp
  have outer : (⟨"/a/i.ts"⟩ : Path) ∈ [(⟨"/a/b/u.ts"⟩ : Path), ⟨"/a/i.ts"⟩] := by simp
  obtain ⟨owner, owns, -, -, -, -, -, deeper, -⟩ :=
    owner_of_discovered nested_built nested_named nested_discovered place listed inner
  have inside : ∃ t ∈ nestedRegistry.services, t.contains ⟨"/a/b/u.ts"⟩ = true ∧
      outerService.root.components.length < t.root.components.length :=
    ⟨innerService, by simp [nestedRegistry], by cbv, by cbv⟩
  obtain ⟨lower, reported⟩ := deeper inside
  obtain ⟨same, owned, -, -, -, -, agree, -, -⟩ :=
    owner_of_discovered nested_built nested_named nested_discovered place listed outer
  have apart : innerService.contains ⟨"/a/i.ts"⟩ = false := by cbv
  obtain ⟨rfl, dropped⟩ := agree (by simp) (by simp [apart])
  obtain ⟨twin, shares, -, -, -, -, -, -, level⟩ :=
    owner_of_discovered twin_built nested_named twin_discovered twins listed outer
  have around : twinService.contains ⟨"/a/i.ts"⟩ = true := by cbv
  obtain ⟨root, -, crosses⟩ := level (by simp [twinRegistry, outerService, twinService])
    ⟨twinService, by simp, around, rfl⟩
  exact ⟨nested_built, nested_named, nested_discovered, nested_leadsTo,
    ⟨owner, owns, lower, reported _ _ (List.mem_singleton_self _) rfl inwardImport
      (List.mem_singleton_self _) nested_leadsTo⟩,
    nested_leadsOut, owned, dropped [] { service := "web" } [] [] parentImport [inwardImport] rfl
      nested_leadsOut,
    twin_built, twin_discovered, twin, shares, root,
    crosses _ _ (List.mem_singleton_self _) rfl parentImport (List.mem_singleton_self _) nested_leadsOut⟩

/-- Discovery gives the file to the outer service, and yet it stands in the root of the inner one:
its place is owned there, and the outer service is reported for an import of its own file. -/
theorem Registry.owner_apart_from_discovery :
    Registry.ofSettings nestedSettings = .ok nestedRegistry ∧ nestedTree.root.named = true ∧
      nestedRegistry.sources nestedTree = .ok [[⟨"/a/b/u.ts"⟩, ⟨"/a/i.ts"⟩], [⟨"/a/b/m.py"⟩]] ∧
      (nestedRegistry.owner? ⟨"/a/b/u.ts"⟩).map Service.name = some "job" ∧
      nestedRegistry.LeadsTo outerService inwardImport ⟨"/a/b/u.ts"⟩ ∧
      nestedRegistry.boundaryViolations (nestedRegistry.scan nestedTree nestedSources none) =
        [⟨"web", "job", ⟨"a/i.ts"⟩, 1, "./b/u.ts"⟩] := by
  exact ⟨nested_built, nested_named, nested_discovered, by cbv, nested_leadsTo, by cbv⟩

end ServiceMap
