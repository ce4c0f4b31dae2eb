import Mathlib.Data.List.Pairwise
import ServiceMap.Proofs.Paths
import ServiceMap.Sources

/-! What discovery finds. The files of a service stand below its root, a walk meets each of them once,
and where discovery succeeds, each service has the files it selects and no two services have one in
common. -/

namespace ServiceMap

namespace Node

mutual

/-- Every name in the tree is one that a directory may hold. -/
def named : Node → Bool
  | dir children => namedIn children
  | _ => true

def namedIn : List (String × Node) → Bool
  | [] => true
  | (name, n) :: rest => Path.isName name && n.named && namedIn rest

end

theorem named_of_mem {children : List (String × Node)} {entry : String × Node}
    (h : namedIn children = true) (mem : entry ∈ children) :
    Path.isName entry.1 = true ∧ entry.2.named = true := by
  induction children with
  | nil => cases mem
  | cons first children ih =>
    simp only [namedIn, Bool.and_eq_true] at h
    rcases List.mem_cons.1 mem with rfl | mem
    · exact h.1
    · exact ih h.2 mem

theorem mem_of_lookup {children : List (String × Node)} {name : String} {n : Node}
    (found : children.lookup name = some n) : (name, n) ∈ children := by
  obtain ⟨before, after, rfl, -⟩ := List.lookup_eq_some_iff.1 found
  simp

/-- What directories hand down to their entries holds all the way down. -/
theorem of_descend? {P : Node → Prop}
    (down : ∀ children name n, P (dir children) → children.lookup name = some n → P n)
    {n m : Node} {names : List String} (h : P n) (found : n.descend? names = some m) : P m := by
  induction names generalizing n with
  | nil =>
    cases found
    exact h
  | cons name names ih =>
    obtain ⟨child, step, rest⟩ := Option.bind_eq_some_iff.1 found
    cases n with
    | dir children => exact ih (down children name child h step) rest
    | file bytes => cases step
    | link target => cases step

theorem named_of_descend? {n m : Node} {names : List String} (h : n.named = true)
    (found : n.descend? names = some m) : m.named = true :=
  of_descend? (P := fun n => n.named = true)
    (fun _ _ _ h there => (named_of_mem h (mem_of_lookup there)).2) h found

mutual

/-- No directory in the tree holds a name twice. -/
def distinct : Node → Bool
  | dir children => decide (children.map Prod.fst).Nodup && distinctIn children
  | _ => true

def distinctIn : List (String × Node) → Bool
  | [] => true
  | (_, n) :: rest => n.distinct && distinctIn rest

end

theorem distinctIn_iff {children : List (String × Node)} :
    distinctIn children = true ↔ ∀ entry ∈ children, entry.2.distinct = true := by
  induction children with
  | nil => simp [distinctIn]
  | cons entry children ih => rw [distinctIn, Bool.and_eq_true, ih, List.forall_mem_cons]

theorem distinct_of_descend? {n m : Node} {names : List String} (h : n.distinct = true)
    (found : n.descend? names = some m) : m.distinct = true := by
  refine of_descend? (P := fun n => n.distinct = true) (fun children name n h there => ?_) h found
  rw [distinct, Bool.and_eq_true, distinctIn_iff] at h
  exact h.2 (name, n) (mem_of_lookup there)

end Node

namespace FileTree

variable {tree : FileTree}

theorem descend?_of_follow {mayEndOpen : Bool} {links : Nat} {done todo names : List String} {n : Node}
    (h : tree.follow mayEndOpen links done todo = .ok (names, some n)) :
    tree.root.descend? names = some n := by
  fun_induction tree.follow mayEndOpen links done todo with
  | case1 links done =>
    obtain ⟨rfl, there⟩ := Prod.mk.inj (Except.ok.inj h)
    exact there
  | _ => simp_all

theorem descend?_of_resolve {p : Path} {names : List String} {n : Node}
    (h : tree.resolve p = .ok (names, n)) : tree.root.descend? names = some n := by
  unfold resolve at h
  split at h
  · cases h
  · split at h
    · next followed =>
      cases h
      exact descend?_of_follow followed
    · cases h
    · cases h

end FileTree

theorem mem_walkChildren_cons {tree : FileTree} {chain : IgnoreChain} {at_ f : Path} {name : String}
    {n : Node} {rest : List (String × Node)} (h : f ∈ walkChildren tree chain at_ ((name, n) :: rest)) :
    f ∈ walkNode tree chain at_ name n ∨ f ∈ walkChildren tree chain at_ rest := by
  unfold walkChildren at h
  exact (List.mem_append.1 h).imp_left fun h => (List.mem_ite_nil_left.1 h).2

mutual

theorem walkChildren_below {tree : FileTree} {chain : IgnoreChain} {at_ : Path} (ne : at_.text ≠ "") :
    ∀ {children : List (String × Node)}, Node.namedIn children = true →
      ∀ f ∈ walkChildren tree chain at_ children, at_.components <+: f.components
  | [], _, f, hf => by simp [walkChildren] at hf
  | (name, n) :: rest, named, f, hf => by
    simp only [Node.namedIn, Bool.and_eq_true] at named
    rcases mem_walkChildren_cons hf with hf | hf
    · exact walkNode_below ne named.1.1 named.1.2 f hf
    · exact walkChildren_below ne named.2 f hf

theorem walkNode_below {tree : FileTree} {chain : IgnoreChain} {at_ : Path} {name : String}
    (ne : at_.text ≠ "") (isName : Path.isName name = true) :
    ∀ {n : Node}, n.named = true →
      ∀ f ∈ walkNode tree chain at_ name n, at_.components <+: f.components
  | .dir children, named, f, hf => by
    have inner : at_.components <+: (at_.join ⟨name⟩).components := by
      rw [Path.components_join_name ne isName]
      exact List.prefix_append _ _
    rw [walkNode] at hf
    exact inner.trans
      (walkChildren_below (Path.join_text_ne ne (Path.isAbsolute_name isName)) named f hf)
  | .file _, _, f, hf => by
    simp only [walkNode, List.mem_singleton] at hf
    rw [hf, Path.components_join_name ne isName]
    exact List.prefix_append _ _
  | .link _, _, f, hf => by
    simp only [walkNode, List.mem_singleton] at hf
    rw [hf, Path.components_join_name ne isName]
    exact List.prefix_append _ _

end

theorem mem_walkChildren {tree : FileTree} {chain : IgnoreChain} {at_ f : Path}
    {children : List (String × Node)} (h : f ∈ walkChildren tree chain at_ children) :
    ∃ entry ∈ children, f ∈ walkNode tree chain at_ entry.1 entry.2 := by
  induction children with
  | nil => simp [walkChildren] at h
  | cons entry children ih =>
    rcases mem_walkChildren_cons h with here | below
    · exact ⟨entry, List.mem_cons_self, here⟩
    · obtain ⟨other, mem, there⟩ := ih below
      exact ⟨other, List.mem_cons_of_mem _ mem, there⟩

/-- What a walk meets in an entry has the entry's name on its path. -/
theorem walkNode_named {tree : FileTree} {chain : IgnoreChain} {at_ f : Path} {name : String} {n : Node}
    (ne : at_.text ≠ "") (isName : Path.isName name = true) (named : n.named = true)
    (hf : f ∈ walkNode tree chain at_ name n) : at_.components ++ [.name name] <+: f.components := by
  rw [← Path.components_join_name ne isName]
  cases n with
  | dir children =>
    rw [walkNode] at hf
    exact walkChildren_below (Path.join_text_ne ne (Path.isAbsolute_name isName)) named f hf
  | file bytes =>
    simp only [walkNode, List.mem_singleton] at hf
    exact hf ▸ List.prefix_refl _
  | link target =>
    simp only [walkNode, List.mem_singleton] at hf
    exact hf ▸ List.prefix_refl _

mutual

/-- Entries with different names have no file in common. -/
theorem walkChildren_once {tree : FileTree} {chain : IgnoreChain} {at_ : Path} (ne : at_.text ≠ "") :
    ∀ {children : List (String × Node)}, Node.namedIn children = true →
      (children.map Prod.fst).Nodup → Node.distinctIn children = true →
        (walkChildren tree chain at_ children).Pairwise fun f g => f.components ≠ g.components
  | [], _, _, _ => by simp [walkChildren]
  | (name, n) :: rest, named, nodup, distinct => by
    simp only [Node.namedIn, Bool.and_eq_true] at named
    rw [Node.distinctIn, Bool.and_eq_true] at distinct
    obtain ⟨new, nodup⟩ := List.nodup_cons.1 nodup
    unfold walkChildren
    rw [List.pairwise_append]
    refine ⟨?_, walkChildren_once ne named.2 nodup distinct.2, fun f hf g hg same => ?_⟩
    · refine iteInduction (motive := List.Pairwise _) (fun _ => .nil) fun _ => ?_
      exact walkNode_once ne named.1.1 named.1.2 distinct.1
    · -- a path through the first entry and one through another differ where the entries are named
      obtain ⟨entry, mem, hg⟩ := mem_walkChildren hg
      obtain ⟨isName, inner⟩ := Node.named_of_mem named.2 mem
      have here := walkNode_named ne named.1.1 named.1.2 (List.mem_ite_nil_left.1 hf).2
      have there := walkNode_named ne isName inner hg
      rw [← same] at there
      have names : at_.components ++ [.name name] = at_.components ++ [.name entry.1] :=
        (List.prefix_of_prefix_length_le here there (by simp)).eq_of_length (by simp)
      have repeated : name = entry.1 := by simpa using names
      exact new (List.mem_map.2 ⟨entry, mem, repeated.symm⟩)

theorem walkNode_once {tree : FileTree} {chain : IgnoreChain} {at_ : Path} {name : String}
    (ne : at_.text ≠ "") (isName : Path.isName name = true) :
    ∀ {n : Node}, n.named = true → n.distinct = true →
      (walkNode tree chain at_ name n).Pairwise fun f g => f.components ≠ g.components
  | .dir children, named, distinct => by
    rw [Node.distinct, Bool.and_eq_true, decide_eq_true_eq] at distinct
    rw [walkNode]
    exact walkChildren_once (Path.join_text_ne ne (Path.isAbsolute_name isName)) named distinct.1 distinct.2
  | .file _, _, _ => by simp [walkNode]
  | .link _, _, _ => by simp [walkNode]

end

/-- A directory without ignore files has no rules of its own. -/
theorem IgnoreLevel.ofDir_of_absent {tree : FileTree} {dir : Path}
    (absent : ∀ name ∈ [".ignore", ".gitignore", ".git/info/exclude", ".git"],
      tree.resolve (dir.join ⟨name⟩) = .error .notFound) :
    IgnoreLevel.ofDir tree dir = ⟨[], [], [], false⟩ := by
  simp only [List.forall_mem_cons] at absent
  obtain ⟨ignore, gitignore, exclude, repository, -⟩ := absent
  simp [ofDir, IgnoreRules.ofFile, FileTree.read, FileTree.exists?, ignore, gitignore, exclude,
    repository, Except.isOk, Except.toBool]

/-- A walk meets nothing outside the place where it starts. -/
theorem FileTree.walk_below {tree : FileTree} (named : tree.root.named = true) {root f : Path}
    (hf : f ∈ tree.walk root) : root.components <+: f.components := by
  unfold walk at hf
  split at hf
  · next names children there =>
    have inside : (Node.dir children).named = true :=
      Node.named_of_descend? named (descend?_of_resolve there)
    have ne : root.text ≠ "" := fun empty => by simp [resolve, empty] at there
    exact walkChildren_below ne inside f (List.mem_filter.1 hf).1
  · exact (List.mem_singleton.1 hf) ▸ List.prefix_refl _
  · cases hf

/-- The walk from a root meets each file once. -/
def FileTree.WalksOnce (tree : FileTree) (root : Path) : Prop :=
  (tree.walk root).Pairwise fun f g => f.components ≠ g.components

theorem FileTree.walksOnce_of_distinct {tree : FileTree} (named : tree.root.named = true)
    (distinct : tree.root.distinct = true) (root : Path) : tree.WalksOnce root := by
  unfold WalksOnce walk
  split
  · next names children there =>
    have inside := descend?_of_resolve there
    have names : (Node.dir children).named = true := Node.named_of_descend? named inside
    have entries : (Node.dir children).distinct = true := Node.distinct_of_descend? distinct inside
    rw [Node.distinct, Bool.and_eq_true, decide_eq_true_eq] at entries
    have ne : root.text ≠ "" := fun empty => by simp [resolve, empty] at there
    exact (walkChildren_once ne names entries.1 entries.2).filter _
  · exact List.pairwise_singleton ..
  · exact .nil

theorem Service.files_of_isDir {s : Service} {tree : FileTree} (dir : tree.isDir s.root = true) :
    s.files tree = sortBy compare ((tree.walk s.root).filter (s.selector.selects s.language s.root)) := by
  rw [files, if_pos dir, Selector.files]

theorem Service.files_cases {P : List Path → Prop} {s : Service} {tree : FileTree} (none : P [])
    (found : P (sortBy compare ((tree.walk s.root).filter (s.selector.selects s.language s.root)))) :
    P (s.files tree) := by
  rw [files]
  split
  · exact found
  · exact none

theorem Service.contains_of_mem_files {s : Service} {tree : FileTree} (named : tree.root.named = true)
    {f : Path} (hf : f ∈ s.files tree) : s.contains f = true := by
  refine files_cases (P := fun fs => ∀ f ∈ fs, s.contains f = true) (by simp) (fun f hf => ?_) f hf
  exact Path.isUnder_iff.2 (tree.walk_below named (List.mem_filter.1 (mem_sortBy.1 hf)).1)

namespace Sources

/-- No file is in both lists. -/
def Apart (fs gs : List Path) : Prop := ∀ f ∈ fs, ∀ g ∈ gs, f.components ≠ g.components

instance : Std.Symm Apart := ⟨fun _ _ h f hf g hg same => h g hg f hf same.symm⟩

variable {tree : FileTree} {acc : Sources} {s : Service} {earlier : List Service}

theorem holder?_eq_none_iff {found : List (Service × List Path)} {g : Path} :
    holder? found g = none ↔ ∀ x ∈ found, ∀ f ∈ x.2, f.components ≠ g.components := by
  simp only [holder?, Option.map_eq_none_iff, List.find?_eq_none, List.any_eq_true, decide_eq_true_eq,
    Path.compare_eq_iff, not_exists, not_and, ne_eq]

theorem clashOf?_eq_none_iff {found : List (Service × List Path)} {files : List Path} :
    clashOf? found s files = none ↔ ∀ x ∈ found, Apart x.2 files := by
  simp only [clashOf?, List.findSome?_eq_none_iff, Option.map_eq_none_iff, holder?_eq_none_iff, Apart]
  exact ⟨fun h x hx f hf g hg => h g hg x hx f hf, fun h g hg x hx f hf => h x hx f hf g hg⟩

/-- Without a clash, each of the services gone through has the files it selects. -/
structure Complete (tree : FileTree) (services : List Service) (acc : Sources) : Prop where
  found : acc.found = services.map fun s => (s, s.files tree)
  apart : (services.map fun s => s.files tree).Pairwise Apart

theorem Complete.add (h : acc.clash? = none → Complete tree earlier acc)
    (clean : (acc.add tree s).clash? = none) : Complete tree (earlier ++ [s]) (acc.add tree s) := by
  cases before : acc.clash? with
  | some c => simp [Sources.add, before] at clean
  | none =>
    obtain ⟨found, apart⟩ := h before
    cases new : clashOf? acc.found s (s.files tree) with
    | some c => simp [Sources.add, before, new] at clean
    | none =>
      have taken : acc.add tree s = ⟨acc.found ++ [(s, s.files tree)], none⟩ := by
        simp [Sources.add, before, new]
      have free : ∀ x ∈ acc.found, Apart x.2 (s.files tree) := clashOf?_eq_none_iff.1 new
      rw [taken]
      refine ⟨by simp [found], ?_⟩
      rw [List.map_append, List.pairwise_append]
      refine ⟨apart, List.pairwise_singleton .., fun fs hfs gs hgs => ?_⟩
      obtain ⟨t, ht, rfl⟩ := List.mem_map.1 hfs
      obtain rfl : gs = s.files tree := by simpa using hgs
      exact free (t, t.files tree) (by rw [found]; exact List.mem_map_of_mem ht)

theorem Complete.foldl (earlier services : List Service) (h : acc.clash? = none → Complete tree earlier acc)
    (clean : (services.foldl (Sources.add tree) acc).clash? = none) :
    Complete tree (earlier ++ services) (services.foldl (Sources.add tree) acc) := by
  induction services generalizing earlier acc with
  | nil => simpa using h clean
  | cons s services ih =>
    have step := ih (earlier ++ [s]) (Complete.add h) clean
    simpa using step

end Sources

/-- Where discovery succeeds, it gives the files of all services, and no two services share one. -/
theorem Registry.files_of_sources {r : Registry} {tree : FileTree} {index : List (List Path)}
    (h : r.sources tree = .ok index) :
    index = r.services.map (fun s => s.files tree) ∧ index.Pairwise Sources.Apart := by
  unfold sources at h
  cases clash : (Sources.ofRegistry tree r).clash? with
  | some c => simp [clash] at h
  | none =>
    obtain ⟨found, apart⟩ : Sources.Complete tree r.services (Sources.ofRegistry tree r) :=
      Sources.Complete.foldl [] r.services (fun _ => ⟨rfl, .nil⟩) clash
    obtain rfl : (Sources.ofRegistry tree r).files = index := by simpa [clash] using h
    rw [Sources.files, found, List.map_map]
    exact ⟨rfl, apart⟩

theorem Registry.apart_of_sources {r : Registry} {tree : FileTree} {index : List (List Path)}
    (h : r.sources tree = .ok index) {s t : Service} (hs : s ∈ r.services) (ht : t ∈ r.services)
    (other : s ≠ t) : Sources.Apart (s.files tree) (t.files tree) := by
  obtain ⟨rfl, apart⟩ := files_of_sources h
  have : Std.Symm fun s t : Service => Sources.Apart (s.files tree) (t.files tree) :=
    ⟨fun _ _ => symm⟩
  exact (List.pairwise_map.1 apart).forall hs ht other

end ServiceMap
