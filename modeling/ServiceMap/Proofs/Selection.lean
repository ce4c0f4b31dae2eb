import ServiceMap.Audit.Languages
import ServiceMap.Proofs.Clashes
import ServiceMap.Proofs.Sorting

/-! The files that a service selects, beside the count of the files of each language. Both are taken from
one walk, and an extension belongs to the same language in both; so no more files are selected than are
counted, and a service that is reported for the languages of its files has none of its own. -/

namespace ServiceMap

open scoped List

namespace Language

variable {l : Language} {p : Path}

theorem mem_extensions {ext : String} (h : ofExtension? ext = some l) : ext ∈ l.extensions := by
  have owner := List.find?_some (p := fun l : Language => l.extensions.contains ext) h
  exact List.contains_iff_mem.1 owner

theorem ofExtension?_eq_some_iff {ext : String} : ofExtension? ext = some l ↔ ext ∈ l.extensions := by
  refine ⟨mem_extensions, fun mem => ?_⟩
  obtain ⟨m, found⟩ : ∃ m, ofExtension? ext = some m := by
    rw [← Option.isSome_iff_exists, ofExtension?, List.find?_isSome]
    exact ⟨l, mem_all l, List.contains_iff_mem.2 mem⟩
  obtain rfl : m = l := eq_of_mem_extensions (mem_extensions found) mem
  exact found

/-- The language that owns a file is the one that it is counted for. -/
theorem owns_iff : l.owns p = true ↔ p.extension?.bind ofExtension? = some l := by
  simp only [owns, Option.any_eq_true, Option.bind_eq_some_iff, ofExtension?_eq_some_iff,
    List.contains_iff_mem]

end Language

/-- Only the positive numbers are found under their keys. -/
theorem lookup_positive {α : Type} [DecidableEq α] (f : α → Nat) (keys : List α) (a : α) :
    ((keys.map fun k => (k, f k)).filter fun (_, n) => 0 < n).lookup a =
      if a ∈ keys ∧ 0 < f a then some (f a) else none := by
  induction keys with
  | nil => simp
  | cons k keys ih =>
    by_cases same : a = k
    · subst same
      by_cases pos : 0 < f a
      · simp [pos]
      · simpa [pos] using ih
    · have apart : (a == k) = false := beq_false_of_ne same
      by_cases pos : 0 < f k
      · simpa [pos, List.lookup_cons, apart, same] using ih
      · simpa [pos, same] using ih

namespace FileTree

variable {tree : FileTree} {root : Path} {l : Language}

/-- How many files of the language are counted. -/
def languageCount (tree : FileTree) (root : Path) (l : Language) : Nat :=
  ((tree.countByLanguage root).lookup l).getD 0

theorem count_owned (files : List Path) (l : Language) :
    (files.filterMap fun p => p.extension?.bind Language.ofExtension?).count l =
      (files.filter l.owns).length := by
  rw [List.count_filterMap, ← List.countP_eq_length_filter]
  refine List.countP_congr fun p _ => ?_
  rw [beq_iff_eq, Language.owns_iff]

theorem languageCount_eq : tree.languageCount root l = ((tree.walk root).filter l.owns).length := by
  simp only [languageCount, countByLanguage, count_owned]
  rw [lookup_positive (fun l : Language => ((tree.walk root).filter l.owns).length)]
  split
  · rfl
  · next none =>
    have zero : ¬ 0 < ((tree.walk root).filter l.owns).length := fun pos => none ⟨l.mem_all, pos⟩
    rw [Option.getD_none]
    omega

theorem pos_of_mem_countByLanguage {entry : Language × Nat} (h : entry ∈ tree.countByLanguage root) :
    0 < entry.2 :=
  of_decide_eq_true (List.mem_filter.1 h).2

/-- A language that is not listed has no files. -/
theorem languageCount_eq_zero (absent : l ∉ (tree.countByLanguage root).map Prod.fst) :
    tree.languageCount root l = 0 := by
  have none : (tree.countByLanguage root).lookup l = none := by
    refine List.lookup_eq_none_iff.2 fun entry mem => ?_
    rw [bne_iff_ne]
    rintro rfl
    exact absent (List.mem_map_of_mem mem)
  rw [languageCount, none, Option.getD_none]

end FileTree

/-- The members of what is made of a list are made of its members. -/
theorem mem_of_mapM {ε α β : Type} {f : α → Except ε β} {l : List α} {bs : List β}
    (h : l.mapM f = .ok bs) {b : β} : b ∈ bs ↔ ∃ a ∈ l, f a = .ok b := by
  induction l generalizing bs with
  | nil =>
    cases h
    simp
  | cons a l ih =>
    rw [List.mapM_cons] at h
    cases first : f a with
    | error e => simp [first, bind, Except.bind] at h
    | ok c =>
      cases rest : l.mapM f with
      | error e => simp [first, rest, bind, Except.bind] at h
      | ok cs =>
        obtain rfl : c :: cs = bs := by simpa [first, rest, bind, Except.bind, pure, Except.pure] using h
        simp [first, ih rest, eq_comm]

namespace Selector

variable {s t : Selector} {tree : FileTree} {l : Language} {root p : Path}

/-- The globs of which none may match a selected file. -/
def excluded (s : Selector) : List (List Glob.Token) := s.excludeGlobs.elim [] Globs.members

/-- `t` is `s` with more exclude globs, or without the test files, or both. -/
structure Tightens (s t : Selector) : Prop where
  includes : t.includeGlobs = s.includeGlobs
  excludes : s.excluded ⊆ t.excluded
  tests : t.includeTests = true → s.includeTests = true

theorem mem_excluded {patterns : List String} {ex : Option Globs}
    (h : Globs.ofPatterns? patterns = .ok ex) {tokens : List Glob.Token} :
    tokens ∈ excluded { s with excludeGlobs := ex } ↔
      ∃ pattern ∈ patterns, Glob.read Globs.dialect pattern = .ok tokens := by
  rw [Globs.ofPatterns?] at h
  split at h
  · next none =>
    cases h
    simp [excluded, List.isEmpty_iff.1 none]
  · rw [Globs.ofPatterns] at h
    cases read : patterns.mapM fun p => (Glob.read Globs.dialect p).mapError fun e => (p, e) with
    | error e => simp [read, Except.map] at h
    | ok members =>
      obtain rfl : some ⟨members⟩ = ex := by simpa [read, Except.map] using h
      refine (mem_of_mapM read).trans (exists_congr fun pattern => and_congr_right fun _ => ?_)
      cases Glob.read Globs.dialect pattern <;> simp [Except.mapError]

/-- More patterns make more globs. -/
theorem tightens_of_patterns {ps qs : List String} {ex more : Option Globs}
    (before : Globs.ofPatterns? ps = .ok ex) (after : Globs.ofPatterns? qs = .ok more) (sub : ps ⊆ qs)
    (s : Selector) : Tightens { s with excludeGlobs := ex } { s with excludeGlobs := more } where
  includes := rfl
  excludes := by
    intro tokens h
    obtain ⟨pattern, listed, read⟩ := (mem_excluded before).1 h
    exact (mem_excluded after).2 ⟨pattern, sub listed, read⟩
  tests := id

theorem any_excludeGlobs (s : Selector) (path : String) :
    s.excludeGlobs.any (·.contains path) = s.excluded.any fun tokens =>
      Glob.accepts Globs.dialect tokens path := by
  unfold excluded
  cases s.excludeGlobs <;> rfl

theorem Tightens.selects (h : s.Tightens t) (selected : t.selects l root p = true) :
    s.selects l root p = true := by
  simp only [Selector.selects, any_excludeGlobs, Bool.and_eq_true, Bool.or_eq_true, Bool.not_eq_true',
    List.any_eq_false] at selected ⊢
  obtain ⟨⟨⟨owned, outside⟩, untested⟩, inside⟩ := selected
  exact ⟨⟨⟨owned, fun tokens ht => outside tokens (h.excludes ht)⟩, untested.imp_left h.tests⟩,
    h.includes ▸ inside⟩

theorem owns_of_selects (h : s.selects l root p = true) : l.owns p = true := by
  simp only [selects, Bool.and_eq_true] at h
  exact h.1.1.1

/-- Without filters a language selects what it owns. -/
theorem selects_all : selects ⟨none, none, true⟩ l root p = l.owns p := by
  simp [selects]

theorem length_files : (s.files tree l root).length = ((tree.walk root).filter (s.selects l root)).length :=
  (sortBy_perm compare _).length_eq

theorem length_files_le : (s.files tree l root).length ≤ tree.languageCount root l := by
  rw [length_files, FileTree.languageCount_eq]
  exact (List.monotone_filter_right _ fun p => owns_of_selects).length_le

theorem length_files_all : (files ⟨none, none, true⟩ tree l root).length = tree.languageCount root l := by
  rw [length_files, FileTree.languageCount_eq]
  exact congrArg List.length (List.filter_congr fun p _ => selects_all)

/-- The files that are left stand in the order in which they stood before. -/
theorem Tightens.files_sublist (h : s.Tightens t) : t.files tree l root <+ s.files tree l root := by
  rw [files, files, sortBy_filter, sortBy_filter]
  exact List.monotone_filter_right _ fun p => h.selects

end Selector

/-- What is reported of a service for the languages of its files: they are counted below its root, and
none of them is of the declared language. -/
structure LanguageMismatch.Of (m : LanguageMismatch) (tree : FileTree) (s : Service) : Prop where
  service : m.service = s.name
  declared : m.declared = s.language
  noFiles : s.files tree = []
  counted : m.found = tree.countByLanguage s.root
  found : m.found ≠ []
  positive : ∀ entry ∈ m.found, 0 < entry.2
  absent : m.declared ∉ m.found.map Prod.fst

theorem Service.files_eq_nil {s : Service} {tree : FileTree}
    (none : tree.languageCount s.root s.language = 0) : s.files tree = [] := by
  have le : (s.selector.files tree s.language s.root).length ≤ 0 := none ▸ Selector.length_files_le
  rw [Service.files, List.length_eq_zero_iff.1 (Nat.le_zero.1 le), ite_self]

namespace LanguageReport

variable {tree : FileTree} {s : Service} {scan : Scan} {m : LanguageMismatch}

theorem mismatch?_eq_some_iff : mismatch? tree s scan = some m ↔
    scan.skipped = false ∧ tree.isDir s.root = true ∧ m.Of tree s := by
  have own : (∃ entry ∈ tree.countByLanguage s.root, entry.1 = s.language) ↔
      s.language ∈ (tree.countByLanguage s.root).map Prod.fst := List.mem_map.symm
  simp only [mismatch?, Option.ite_none_left_eq_some, Option.some.injEq, Bool.or_eq_true, not_or,
    Bool.not_eq_true, Bool.not_eq_false', List.isEmpty_iff, List.any_eq_true, decide_eq_true_eq, own]
  constructor
  · rintro ⟨⟨read, dir⟩, ⟨some, absent⟩, rfl⟩
    exact ⟨read, dir,
      { service := rfl
        declared := rfl
        noFiles := Service.files_eq_nil (FileTree.languageCount_eq_zero absent)
        counted := rfl
        found := some
        positive := fun entry => FileTree.pos_of_mem_countByLanguage
        absent := absent }⟩
  · rintro ⟨read, dir, of⟩
    obtain ⟨service, declared, found⟩ := m
    obtain ⟨rfl, rfl, -, rfl, some, -, absent⟩ := of
    exact ⟨⟨read, dir⟩, ⟨some, absent⟩, rfl⟩

theorem mem_mismatches {r : Registry} {scans : List Scan} :
    m ∈ (ofScans tree r scans).mismatches ↔
      ∃ p ∈ r.services.zip scans, p.2.skipped = false ∧ tree.isDir p.1.root = true ∧ m.Of tree p.1 := by
  refine mem_sortBy.trans (List.mem_filterMap.trans ?_)
  exact exists_congr fun p => and_congr_right fun _ => mismatch?_eq_some_iff

end LanguageReport

/-- However its filters are set, a selection has no more files than are counted for its language, and it
has as many without any. A filter more takes files away and adds none. The services that are reported for
the languages of their files are those with files, none of which is a source file of theirs. -/
theorem FileTree.selection_within_count (tree : FileTree) :
    (∀ (s : Selector) l root, (s.files tree l root).length ≤ tree.languageCount root l) ∧
      (∀ l root, (Selector.files ⟨none, none, true⟩ tree l root).length = tree.languageCount root l) ∧
      (∀ s t : Selector, s.Tightens t → ∀ l root, t.files tree l root <+ s.files tree l root) ∧
      (∀ ps qs ex more, Globs.ofPatterns? ps = .ok ex → Globs.ofPatterns? qs = .ok more → ps ⊆ qs →
        ∀ s : Selector, Selector.Tightens { s with excludeGlobs := ex } { s with excludeGlobs := more }) ∧
      ∀ r scans m, m ∈ (LanguageReport.ofScans tree r scans).mismatches ↔
        ∃ p ∈ r.services.zip scans, p.2.skipped = false ∧ tree.isDir p.1.root = true ∧ m.Of tree p.1 :=
  ⟨fun _ _ _ => Selector.length_files_le, fun _ _ => Selector.length_files_all,
    fun _ _ h _ _ => h.files_sublist,
    fun _ _ _ _ before after sub s => Selector.tightens_of_patterns before after sub s,
    fun _ _ _ => LanguageReport.mem_mismatches⟩

/-- A service in a language of which there is no file below its root. -/
def strayService : Service :=
  ⟨"stray", .go, ⟨"/a"⟩, ⟨"a"⟩, ⟨none, none, true⟩, [], [], []⟩

def everyFile : Selector := ⟨none, none, true⟩

def outerFiles : Selector := { everyFile with excludeGlobs := some ⟨[[.literal 'b', .literal '/', .star]]⟩ }

theorem stray_counted : nestedTree.countByLanguage ⟨"/a"⟩ = [(.typescript, 2), (.python, 1)] := by
  rw [FileTree.countByLanguage, walk_outer]
  cbv

theorem FileTree.selection_within_count_nested :
    let report := LanguageReport.ofScans nestedTree ⟨⟨"/"⟩, [strayService]⟩ [{ service := "stray" }]
    Globs.ofPatterns? [] = .ok none ∧
      Globs.ofPatterns? ["b/*"] = .ok (some ⟨[[.literal 'b', .literal '/', .star]]⟩) ∧
      everyFile.Tightens outerFiles ∧
      outerFiles.files nestedTree .typescript ⟨"/a"⟩ <+ everyFile.files nestedTree .typescript ⟨"/a"⟩ ∧
      (everyFile.files nestedTree .typescript ⟨"/a"⟩).length = 2 ∧
      (⟨"stray", .go, [(.typescript, 2), (.python, 1)]⟩ : LanguageMismatch) ∈ report.mismatches ∧
      strayService.files nestedTree = [] := by
  intro report
  obtain ⟨-, all, fewer, patterns, reported⟩ := nestedTree.selection_within_count
  have empty : Globs.ofPatterns? [] = .ok none := rfl
  have star : Globs.ofPatterns? ["b/*"] = .ok (some ⟨[[.literal 'b', .literal '/', .star]]⟩) := by cbv
  have tightens : everyFile.Tightens outerFiles := patterns [] ["b/*"] _ _ empty star (by simp) everyFile
  have two : nestedTree.languageCount ⟨"/a"⟩ .typescript = 2 := by
    rw [FileTree.languageCount, stray_counted]
    rfl
  have dir : nestedTree.isDir strayService.root = true := by cbv
  have found : LanguageReport.mismatch? nestedTree strayService { service := "stray" } =
      some ⟨"stray", .go, [(.typescript, 2), (.python, 1)]⟩ := by
    rw [LanguageReport.mismatch?, dir, show strayService.root = ⟨"/a"⟩ from rfl, stray_counted]
    rfl
  have listed : (⟨"stray", .go, [(.typescript, 2), (.python, 1)]⟩ : LanguageMismatch) ∈ report.mismatches :=
    mem_sortBy.2 (List.mem_filterMap.2 ⟨_, List.mem_singleton_self _, found⟩)
  obtain ⟨p, hp, -, -, of⟩ := (reported _ _ _).1 listed
  obtain rfl : p = (strayService, { service := "stray" }) := List.mem_singleton.1 hp
  exact ⟨empty, star, tightens, fewer _ _ tightens _ _, (all _ _).trans two, listed, of.noFiles⟩

end ServiceMap
