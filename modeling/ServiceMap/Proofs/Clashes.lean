import ServiceMap.Proofs.Ownership
import ServiceMap.Proofs.Sorting

/-! When discovery refuses a registry. It succeeds exactly when no file is selected by two services,
and otherwise it names the least file that the first service to repeat one has in common with an
earlier one. -/

namespace ServiceMap

/-- Languages share no extension. -/
theorem Language.eq_of_mem_extensions {l m : Language} {ext : String} (hl : ext ∈ l.extensions)
    (hm : ext ∈ m.extensions) : l = m := by
  have tables : ∀ l ∈ all, ∀ m ∈ all, ∀ ext ∈ l.extensions, ext ∈ m.extensions → l = m := by decide
  exact tables l (mem_all l) m (mem_all m) ext hl hm

/-- A place belongs to one language at most. -/
theorem Language.eq_of_owns {l m : Language} {p q : Path} (same : p.components = q.components)
    (hp : l.owns p = true) (hq : m.owns q = true) : l = m := by
  have extension : p.extension? = q.extension? := by
    simp only [Path.extension?, Path.fileName?, same]
  rw [owns, extension, Option.any_eq_true] at hp
  rw [owns, Option.any_eq_true] at hq
  obtain ⟨ext, at_, left⟩ := hp
  obtain ⟨_, again, right⟩ := hq
  obtain rfl := Option.some.inj (at_.symm.trans again)
  exact eq_of_mem_extensions (List.contains_iff_mem.1 left) (List.contains_iff_mem.1 right)

namespace Service

variable {s t : Service} {tree : FileTree} {f g : Path} {files : List Path}

/-- The walk from the root of the service, a directory, meets the file, and the selector takes it. -/
def Selects (s : Service) (tree : FileTree) (f : Path) : Prop :=
  tree.isDir s.root = true ∧ f ∈ tree.walk s.root ∧ s.selector.selects s.language s.root f = true

/-- The service selects the file, perhaps under another spelling. -/
def Holds (s : Service) (tree : FileTree) (f : Path) : Prop :=
  ∃ g, s.Selects tree g ∧ g.components = f.components

/-- No file is selected by both services. -/
def Disjoint (tree : FileTree) (s t : Service) : Prop :=
  ∀ f g, s.Selects tree f → t.Selects tree g → f.components ≠ g.components

/-- The files that the service selects, each once and in ascending order. -/
structure Lists (s : Service) (tree : FileTree) (files : List Path) : Prop where
  mem_iff : ∀ f, f ∈ files ↔ s.Selects tree f
  ascending : files.Pairwise fun f g => compare f g = .lt

theorem mem_files_iff : f ∈ s.files tree ↔ s.Selects tree f := by
  unfold Selects
  by_cases dir : tree.isDir s.root = true
  · rw [files_of_isDir dir, mem_sortBy, List.mem_filter]
    simp [dir]
  · rw [files, if_neg dir]
    simp [dir]

theorem files_sorted : (s.files tree).Pairwise fun f g => (compare f g).isLE :=
  files_cases .nil (sortBy_pairwise compare _)

theorem lists_files (once : tree.WalksOnce s.root) : s.Lists tree (s.files tree) := by
  refine ⟨fun f => mem_files_iff, ?_⟩
  have apart : (s.files tree).Pairwise fun f g => f.components ≠ g.components :=
    files_cases .nil (((sortBy_perm compare _).pairwise_iff fun h => h.symm).2 (once.filter _))
  refine files_sorted.imp₂ (fun f g le ne => ?_) apart
  cases cmp : compare f g with
  | lt => rfl
  | eq => exact absurd (Path.compare_eq_iff.1 cmp) ne
  | gt => simp [cmp] at le

theorem disjoint_iff_apart : Disjoint tree s t ↔ Sources.Apart (s.files tree) (t.files tree) := by
  simp only [Disjoint, Sources.Apart, mem_files_iff]
  exact ⟨fun h f hf g hg => h f g hf hg, fun h f g hf hg => h f hf g hg⟩

theorem Disjoint.symm (h : Disjoint tree s t) : Disjoint tree t s :=
  fun f g hf hg same => h g f hg hf same.symm

theorem Selects.holds (h : s.Selects tree f) : s.Holds tree f := ⟨f, h, rfl⟩

theorem Disjoint.not_holds (h : Disjoint tree s t) (hs : s.Holds tree f) : ¬ t.Holds tree f := by
  obtain ⟨g, hg, there⟩ := hs
  rintro ⟨g', hg', here⟩
  exact h g g' hg hg' (there.trans here.symm)

theorem language_eq_of_holds (hs : s.Holds tree f) (ht : t.Selects tree f) : s.language = t.language := by
  obtain ⟨g, ⟨-, -, left⟩, same⟩ := hs
  obtain ⟨-, -, right⟩ := ht
  simp only [Selector.selects, Bool.and_eq_true] at left right
  exact Language.eq_of_owns same left.1.1.1 right.1.1.1

end Service

namespace Sources

variable {tree : FileTree} {acc : Sources} {earlier : List Service} {s : Service} {c : Clash}

theorem clash?_foldl (services : List Service) (h : acc.clash? = some c) :
    (services.foldl (add tree) acc).clash? = some c := by
  induction services with
  | nil => exact h
  | cons s services ih =>
    have kept : acc.add tree s = acc := by simp [add, h]
    rw [List.foldl_cons, kept, ih]

/-- A clash comes from one service, and those before it were gone through without any. -/
theorem exists_clashOf? (services : List Service) (complete : Complete tree earlier acc)
    (clean : acc.clash? = none) (clash : (services.foldl (add tree) acc).clash? = some c) :
    ∃ before second after, services = before ++ second :: after ∧
      ((earlier ++ before).map fun s => s.files tree).Pairwise Apart ∧
      clashOf? ((earlier ++ before).map fun s => (s, s.files tree)) second (second.files tree) = some c := by
  induction services generalizing earlier acc with
  | nil => simp [clean] at clash
  | cons s services ih =>
    rw [List.foldl_cons] at clash
    cases new : clashOf? acc.found s (s.files tree) with
    | some d =>
      -- the services behind this one are passed over
      have stopped : (acc.add tree s).clash? = some d := by simp [add, clean, new]
      obtain rfl : d = c := Option.some.inj ((clash?_foldl services stopped).symm.trans clash)
      refine ⟨[], s, services, rfl, ?_, ?_⟩
      · simpa using complete.apart
      · simpa [complete.found] using new
    | none =>
      have taken : (acc.add tree s).clash? = none := by simp [add, clean, new]
      obtain ⟨before, second, after, rfl, apart, found⟩ :=
        ih (Complete.add (fun _ => complete) taken) taken clash
      exact ⟨s :: before, second, after, rfl, by simpa using apart, by simpa using found⟩

theorem exists_holder {services : List Service} {f : Path}
    (h : holder? (services.map fun s => (s, s.files tree)) f = some s) :
    ∃ before after, services = before ++ s :: after ∧ s.Holds tree f := by
  obtain ⟨⟨_, files⟩, found, rfl⟩ := Option.map_eq_some_iff.1 h
  obtain ⟨held, before, after, split, -⟩ := List.find?_eq_some_iff_append.1 found
  obtain ⟨front, back, rfl, -, split⟩ := List.map_eq_append_iff.1 split
  obtain ⟨t, rest, rfl, eq, -⟩ := List.map_eq_cons_iff.1 split
  cases eq
  simp only [List.any_eq_true, decide_eq_true_eq] at held
  obtain ⟨g, hg, same⟩ := held
  exact ⟨front, rest, rfl, g, Service.mem_files_iff.1 hg, Path.compare_eq_iff.1 same⟩

theorem not_holds_of_holder? {services : List Service} {f : Path}
    (h : holder? (services.map fun s => (s, s.files tree)) f = none) :
    ∀ s ∈ services, ¬ s.Holds tree f := by
  rintro s hs ⟨g, hg, same⟩
  exact holder?_eq_none_iff.1 h (s, s.files tree) (List.mem_map_of_mem hs) g
    (Service.mem_files_iff.2 hg) same

end Sources

/-- Where the services of a registry first share a file: `second` has `file` in common with `first`,
which was registered before it. -/
structure FirstClash (tree : FileTree) (before : List Service) (first : Service)
    (between : List Service) (second : Service) (file : Path) : Prop where
  /-- The services before `second` have no file in common. -/
  apart : (before ++ first :: between).Pairwise (Service.Disjoint tree)
  selects : second.Selects tree file
  holds : first.Holds tree file
  only : ∀ t ∈ before ++ between, ¬ t.Holds tree file
  /-- Any other file that `second` has in common with an earlier service comes later. -/
  least : ∀ g, second.Selects tree g → ∀ t ∈ before ++ first :: between, t.Holds tree g →
    (compare file g).isLE
  language : first.language = second.language

theorem Sources.firstClash {tree : FileTree} {earlier : List Service} {second : Service} {c : Clash}
    (apart : (earlier.map fun s => s.files tree).Pairwise Apart)
    (clash : clashOf? (earlier.map fun s => (s, s.files tree)) second (second.files tree) = some c) :
    ∃ before first between, earlier = before ++ first :: between ∧
      FirstClash tree before first between second c.file ∧ c = ⟨c.file, first.name, second.name⟩ := by
  obtain ⟨front, file, back, split, held, free⟩ := List.findSome?_eq_some_iff.1 clash
  obtain ⟨first, holder, rfl⟩ := Option.map_eq_some_iff.1 held
  obtain ⟨before, between, rfl, holds⟩ := exists_holder holder
  have disjoint : (before ++ first :: between).Pairwise (Service.Disjoint tree) :=
    (List.pairwise_map.1 apart).imp Service.disjoint_iff_apart.2
  have selects : second.Selects tree file := Service.mem_files_iff.1 (by simp [split])
  refine ⟨before, first, between, rfl, ⟨disjoint, selects, holds, ?_, ?_, ?_⟩, rfl⟩
  · intro t ht
    rw [List.pairwise_append, List.pairwise_cons] at disjoint
    rcases List.mem_append.1 ht with ht | ht
    · exact (disjoint.2.2 t ht first List.mem_cons_self).symm.not_holds holds
    · exact (disjoint.2.1.1 t ht).not_holds holds
  · intro g hg t ht holds
    have sorted : (front ++ file :: back).Pairwise fun f g => (compare f g).isLE :=
      split ▸ second.files_sorted
    have mem : g ∈ front ++ file :: back := split ▸ Service.mem_files_iff.2 hg
    -- of the files in front of `file` none was held, and the others are not below it
    rcases List.mem_append.1 mem with mem | mem
    · exact absurd holds (not_holds_of_holder? (Option.map_eq_none_iff.1 (free g mem)) t ht)
    · rcases List.mem_cons.1 mem with rfl | mem
      · rw [Path.compare_eq_iff.2 rfl]
        rfl
      · exact (List.pairwise_cons.1 (List.pairwise_append.1 sorted).2.1).1 g mem
  · exact Service.language_eq_of_holds holds selects

namespace Registry

variable {r : Registry} {tree : FileTree}

theorem disjoint_of_sources {index : List (List Path)} (h : r.sources tree = .ok index) :
    r.services.Pairwise (Service.Disjoint tree) := by
  obtain ⟨rfl, apart⟩ := files_of_sources h
  exact (List.pairwise_map.1 apart).imp Service.disjoint_iff_apart.2

theorem firstClash_of_sources {e : Error} (h : r.sources tree = .error e) :
    ∃ before first between second after file,
      r.services = before ++ first :: between ++ second :: after ∧
        FirstClash tree before first between second file ∧
        e = .overlap (file.relativeTo r.projectRoot) first.name second.name := by
  unfold sources at h
  cases clash : (Sources.ofRegistry tree r).clash? with
  | none => simp [clash] at h
  | some c =>
    have start : Sources.Complete tree [] ⟨[], none⟩ := ⟨rfl, .nil⟩
    obtain ⟨earlier, second, after, split, apart, found⟩ :=
      Sources.exists_clashOf? r.services start rfl clash
    obtain ⟨before, first, between, rfl, at_, names⟩ := Sources.firstClash apart found
    refine ⟨before, first, between, second, after, c.file, split, at_, ?_⟩
    simp only [clash, Except.error.injEq] at h
    rw [← h, names]

/-- A file is in no two services. Discovery gives the files that each service selects exactly when
no two services select one file, and otherwise says where the first two do; they are then in one
language. -/
theorem sources_disjoint (r : Registry) (tree : FileTree)
    (once : ∀ s ∈ r.services, tree.WalksOnce s.root) :
    ((∃ index, r.sources tree = .ok index) ↔ r.services.Pairwise (Service.Disjoint tree)) ∧
      (∀ index, r.sources tree = .ok index →
        List.Forall₂ (fun s files => s.Lists tree files) r.services index) ∧
      ∀ e, r.sources tree = .error e → ∃ before first between second after file,
        r.services = before ++ first :: between ++ second :: after ∧
          FirstClash tree before first between second file ∧
          e = .overlap (file.relativeTo r.projectRoot) first.name second.name := by
  refine ⟨⟨fun ⟨index, found⟩ => disjoint_of_sources found, fun disjoint => ?_⟩, ?_, ?_⟩
  · cases outcome : r.sources tree with
    | ok index => exact ⟨index, rfl⟩
    | error e =>
      obtain ⟨before, first, between, second, after, file, split, clash, -⟩ :=
        firstClash_of_sources outcome
      rw [split] at disjoint
      have apart : Service.Disjoint tree first second :=
        (List.pairwise_append.1 disjoint).2.2 first (by simp) second List.mem_cons_self
      exact absurd clash.selects.holds (apart.not_holds clash.holds)
  · intro index found
    obtain ⟨rfl, -⟩ := files_of_sources found
    rw [List.forall₂_map_right_iff, List.forall₂_same]
    exact fun s hs => Service.lists_files (once s hs)
  · exact fun e => firstClash_of_sources

end Registry

/-- A second service in the language of the outer one, within its root. -/
def sharedService : Service :=
  ⟨"lib", .typescript, ⟨"/a/b"⟩, ⟨"a/b"⟩, ⟨none, none, true⟩, [], [], []⟩

def sharedRegistry : Registry := ⟨⟨"/"⟩, [outerService, sharedService]⟩

theorem nested_once (root : Path) : nestedTree.WalksOnce root :=
  nestedTree.walksOnce_of_distinct nested_named (by cbv) root

theorem files_shared : sharedService.files nestedTree = [⟨"/a/b/u.ts"⟩] := by
  have dir : nestedTree.isDir sharedService.root = true := by cbv
  have walk : nestedTree.walk sharedService.root = _ := walk_inner
  have owned : [(⟨"/a/b/m.py"⟩ : Path), ⟨"/a/b/u.ts"⟩].filter
      (sharedService.selector.selects sharedService.language sharedService.root) =
        [⟨"/a/b/u.ts"⟩] := by cbv
  rw [Service.files_of_isDir dir, walk, owned]
  cbv

theorem shared_refused : sharedRegistry.sources nestedTree = .error (.overlap ⟨"a/b/u.ts"⟩ "web" "lib") := by
  have first : Sources.clashOf? [] outerService [⟨"/a/b/u.ts"⟩, ⟨"/a/i.ts"⟩] = none := by cbv
  have second : Sources.clashOf? [(outerService, [⟨"/a/b/u.ts"⟩, ⟨"/a/i.ts"⟩])] sharedService
      [⟨"/a/b/u.ts"⟩] = some ⟨⟨"/a/b/u.ts"⟩, "web", "lib"⟩ := by cbv
  have relative : (⟨"/a/b/u.ts"⟩ : Path).relativeTo ⟨"/"⟩ = ⟨"a/b/u.ts"⟩ := by cbv
  simp [Registry.sources, Sources.ofRegistry, sharedRegistry, Sources.add, files_outer, files_shared, first,
    second, relative]

/-- Two services in two languages share no file though one root is inside the other; in one language
they do. -/
theorem Registry.sources_disjoint_nested :
    (∀ s ∈ nestedRegistry.services ++ sharedRegistry.services, nestedTree.WalksOnce s.root) ∧
      nestedRegistry.sources nestedTree = .ok nestedSources ∧
      nestedRegistry.services.Pairwise (Service.Disjoint nestedTree) ∧
      List.Forall₂ (fun s files => s.Lists nestedTree files) nestedRegistry.services nestedSources ∧
      sharedRegistry.sources nestedTree = .error (.overlap ⟨"a/b/u.ts"⟩ "web" "lib") ∧
      ¬ sharedRegistry.services.Pairwise (Service.Disjoint nestedTree) ∧
      FirstClash nestedTree [] outerService [] sharedService ⟨"/a/b/u.ts"⟩ := by
  obtain ⟨found, listed, -⟩ :=
    nestedRegistry.sources_disjoint nestedTree fun s _ => nested_once s.root
  obtain ⟨refused, -, clashes⟩ :=
    sharedRegistry.sources_disjoint nestedTree fun s _ => nested_once s.root
  refine ⟨fun s _ => nested_once s.root, nested_discovered, found.1 ⟨_, nested_discovered⟩,
    listed _ nested_discovered, shared_refused, fun disjoint => ?_, ?_⟩
  · obtain ⟨index, discovered⟩ := refused.2 disjoint
    rw [shared_refused] at discovered
    cases discovered
  · obtain ⟨before, first, between, second, after, file, split, clash, -⟩ := clashes _ shared_refused
    obtain ⟨rfl, rfl, rfl⟩ : before = [] ∧ between = [] ∧ after = [] := by
      have counts := congrArg List.length split
      simp only [sharedRegistry, List.length_append, List.length_cons, List.length_nil] at counts
      simp only [← List.length_eq_zero_iff]
      omega
    obtain ⟨rfl, rfl⟩ : outerService = first ∧ sharedService = second := by
      simpa [sharedRegistry] using split
    have mem : file ∈ sharedService.files nestedTree := Service.mem_files_iff.2 clash.selects
    obtain rfl : file = ⟨"/a/b/u.ts"⟩ := by simpa [files_shared] using mem
    exact clash

end ServiceMap
