import ServiceMap.Proofs.Ownership
import ServiceMap.Proofs.Paths

/-! How the roots of services are written. A root may have dots that stand for the directory itself,
and more slashes than it needs. Nothing of that counts where roots are compared with places. Where
they are compared with module names slashes do not count either, but a dot is a segment like any other,
and so a root with a dot is out of reach of the module names that lead to the directory. -/

namespace ServiceMap

open Text

namespace Target

theorem segments_joinWith (ps : List (List Char)) :
    segments (joinWith '/' ps) = ps.flatMap segments := by
  induction ps with
  | nil => rfl
  | cons p ps ih =>
    cases ps with
    | nil => simp [joinWith]
    | cons q ps =>
      rw [show joinWith '/' (p :: q :: ps) = p ++ '/' :: joinWith '/' (q :: ps) from rfl,
        segments_append_slash, List.flatMap_cons, ← ih]

end Target

theorem Text.map_joinWith {sep : Char} {f : Char → Char} (fixed : f sep = sep)
    (ps : List (List Char)) : (joinWith sep ps).map f = joinWith sep (ps.map (List.map f)) := by
  induction ps with
  | nil => rfl
  | cons p ps ih =>
    cases ps with
    | nil => rfl
    | cons q ps =>
      rw [show joinWith sep (p :: q :: ps) = p ++ sep :: joinWith sep (q :: ps) from rfl,
        List.map_append, List.map_cons, ih, fixed]
      rfl

namespace Path

variable {p q base : Path}

/-- What stands between the slashes of a path. -/
def pieces (p : Path) : List (List Char) := split '/' p.text.toList

/-- One of the pieces between the slashes is a dot. -/
def hasDot (p : Path) : Bool := p.pieces.contains ['.']

/-- The components but for a dot in front. -/
def dotless (p : Path) : List Component := p.components.filter (· ≠ .here)

/-- The components are what the pieces name, after the root or a dot in front. -/
theorem components_eq_named (p : Path) : p.components = named p.pieces ∨
    p.components = .root :: named p.pieces ∨
      p.hasDot = true ∧ p.components = .here :: named p.pieces := by
  unfold components parts hasDot pieces
  cases all : split '/' p.text.toList with
  | nil => exact absurd all (split_ne_nil _ _)
  | cons piece rest =>
    cases idle : isIdle piece with
    | false =>
      rw [ofPieces_name idle]
      exact .inl rfl
    | true =>
      have start : piece = [] ∨ piece = ['.'] := by simpa [isIdle] using idle
      rw [named_cons_idle idle]
      rcases start with rfl | rfl
      · by_cases alone : rest = []
        · subst alone
          exact .inl rfl
        · exact .inr (.inl (ofPieces_root alone))
      · exact .inr (.inr ⟨by simp, ofPieces_here rest⟩)

theorem named_pieces (p : Path) : named p.pieces = p.dotless.filter (· ≠ .root) := by
  have plain : (named p.pieces).filter (· ≠ .root) = named p.pieces := by
    refine List.filter_eq_self.2 fun c hc => ?_
    obtain ⟨piece, -, rfl⟩ := List.mem_map.1 hc
    simp [(componentOf_ne piece).1]
  rcases p.components_eq_named with eq | eq | ⟨-, eq⟩
  · rw [dotless, eq, filter_named, plain]
  · rw [dotless, eq, List.filter_cons_of_pos (by simp), filter_named,
      List.filter_cons_of_neg (by simp), plain]
  · rw [dotless, eq, List.filter_cons_of_neg (by simp), filter_named, plain]

theorem components_of_not_hasDot (plain : p.hasDot = false) : p.components = p.dotless := by
  rcases p.components_eq_named with eq | eq | ⟨dot, -⟩
  · rw [dotless, eq, filter_named]
  · rw [dotless, eq, List.filter_cons_of_pos (by simp), filter_named]
  · rw [plain] at dot
    cases dot

theorem componentOf_injective : Function.Injective componentOf := by
  intro a b same
  unfold componentOf at same
  split at same <;> split at same <;> simp_all [String.ofList_inj]

/-- The pieces that name something are the same however often slashes and dots are put in. -/
theorem pieces_of_dotless (same : p.dotless = q.dotless) :
    p.pieces.filter (!isIdle ·) = q.pieces.filter (!isIdle ·) := by
  have names : named p.pieces = named q.pieces := by rw [named_pieces, named_pieces, same]
  exact List.map_injective_iff.2 componentOf_injective names

theorem components_absolute (absolute : p.isAbsolute = true) :
    ∃ rest, p.components = .root :: named rest := by
  have first : p.text.toList.head? = some '/' := by simpa [isAbsolute] using absolute
  obtain ⟨rest, text⟩ := List.head?_eq_some_iff.1 first
  refine ⟨split '/' rest, ?_⟩
  rw [components, parts, text, split_cons, if_pos rfl, ofPieces_root (split_ne_nil _ _)]

theorem isAbsolute_iff : p.isAbsolute = true ↔ .root ∈ p.dotless := by
  constructor
  · intro absolute
    obtain ⟨rest, eq⟩ := components_absolute absolute
    simp [dotless, eq]
  · intro mem
    by_contra relative
    rw [dotless, ← named_split (by simpa using relative)] at mem
    obtain ⟨piece, -, root⟩ := List.mem_map.1 mem
    exact (componentOf_ne piece).1 root

/-- The directory above an absolute path is not empty. -/
theorem parent?_ne (absolute : p.isAbsolute = true) (above : p.parent? = some base) :
    base.text ≠ "" := by
  have first : p.text.toList.head? = some '/' := by simpa [isAbsolute] using absolute
  obtain ⟨rest, text⟩ := List.head?_eq_some_iff.1 first
  have start : p.parts = ⟨some .root, split '/' rest⟩ := by
    rw [parts, text, split_cons, if_pos rfl]
    simp [Parts.ofPieces, split_ne_nil]
  rw [parent?, start] at above
  simp only [Parts.trimEnd] at above
  split at above <;> simp_all
  rw [← above]
  simp [Parts.text]

/-- What is joined to a directory is in the same place however it is written. -/
theorem components_join_congr (ne : base.text ≠ "") (same : p.dotless = q.dotless) :
    (base.join p).components = (base.join q).components := by
  have alike : p.isAbsolute = q.isAbsolute := by
    rw [Bool.eq_iff_iff, isAbsolute_iff, isAbsolute_iff, same]
  cases absolute : p.isAbsolute with
  | false =>
    rw [components_join ne absolute, components_join ne (alike.symm.trans absolute)]
    exact congrArg _ same
  | true =>
    have whole : ∀ {p : Path}, p.isAbsolute = true → (base.join p).components = p.dotless := by
      intro p absolute
      obtain ⟨rest, eq⟩ := components_absolute absolute
      rw [join, if_pos absolute, dotless, eq, List.filter_cons_of_pos (by simp), filter_named]
    rw [whole absolute, whole (alike.symm.trans absolute), same]

/-- What a piece adds to the segments of a root. -/
def pieceSegments (piece : List Char) : List (List Char) :=
  Target.segments (piece.map fun c => if c = '\\' then '/' else c)

/-- The segments of a root that is written without dots. -/
def nameSegments (p : Path) : List (List Char) := (p.pieces.filter (!isIdle ·)).flatMap pieceSegments

/-- A module name reaches a root in the two ways of writing it alike. A root with a dot is out of
reach of the names that have no dot for a segment. -/
def ReachAlike (p q : Path) (segments : List (List Char)) : Prop :=
  p.hasDot = false ∧ q.hasDot = false ∨
    ['.'] ∉ segments ∧ (p.hasDot = q.hasDot ∨ Target.containsRun segments p.nameSegments = false)

end Path

namespace Service

variable {s t : Service} {segments : List (List Char)}

theorem rootSegments_eq (s : Service) :
    s.rootSegments = s.relativeRoot.pieces.flatMap Path.pieceSegments := by
  have text : s.relativeRoot.text.toList = joinWith '/' s.relativeRoot.pieces :=
    (joinWith_split '/' _).symm
  rw [rootSegments, text, map_joinWith (by simp), Target.segments_joinWith, List.flatMap_map]
  rfl

theorem rootSegments_plain (plain : s.relativeRoot.hasDot = false) :
    s.rootSegments = s.relativeRoot.nameSegments := by
  have free : ['.'] ∉ s.relativeRoot.pieces := by simpa [Path.hasDot] using plain
  rw [rootSegments_eq, Path.nameSegments]
  generalize s.relativeRoot.pieces = pieces at free
  induction pieces with
  | nil => rfl
  | cons piece pieces ih =>
    obtain ⟨other, free⟩ : ['.'] ≠ piece ∧ ['.'] ∉ pieces := by simpa using free
    rw [List.flatMap_cons, ih free]
    by_cases empty : piece = []
    · simp [empty, Path.isIdle, Path.pieceSegments, Target.segments]
    · have named : Path.isIdle piece = false := by simp [Path.isIdle, empty, other.symm]
      simp [named]

theorem dot_mem_rootSegments (dot : s.relativeRoot.hasDot = true) : ['.'] ∈ s.rootSegments := by
  rw [rootSegments_eq, List.mem_flatMap]
  exact ⟨['.'], by simpa [Path.hasDot] using dot, by decide⟩

/-- A module name without a dot for a segment reaches only the roots that have none either. -/
theorem containsRun_rootSegments (free : ['.'] ∉ segments) :
    Target.containsRun segments s.rootSegments =
      (!s.relativeRoot.hasDot && Target.containsRun segments s.relativeRoot.nameSegments) := by
  cases dot : s.relativeRoot.hasDot with
  | false => simp [rootSegments_plain dot]
  | true =>
    by_contra found
    obtain ⟨-, run⟩ := Target.containsRun_iff.1 (by simpa [dot] using found)
    exact free (run.subset (dot_mem_rootSegments dot))

/-- One service, but for how its root is written. -/
structure Respelt (s t : Service) : Prop where
  rest : { s with root := t.root, relativeRoot := t.relativeRoot } = t
  root : s.root.components = t.root.components
  relativeRoot : s.relativeRoot.dotless = t.relativeRoot.dotless

namespace Respelt

theorem name (h : s.Respelt t) : s.name = t.name := h.rest ▸ rfl

theorem language (h : s.Respelt t) : s.language = t.language := h.rest ▸ rfl

theorem dependencies (h : s.Respelt t) : s.dependencies = t.dependencies := h.rest ▸ rfl

theorem contains (h : s.Respelt t) (p : Path) : s.contains p = t.contains p := by
  rw [Service.contains, Service.contains, Path.isUnder, Path.isUnder, h.root]

theorem nameSegments (h : s.Respelt t) :
    s.relativeRoot.nameSegments = t.relativeRoot.nameSegments := by
  rw [Path.nameSegments, Path.nameSegments, Path.pieces_of_dotless h.relativeRoot]

variable (h : s.Respelt t) (alike : s.relativeRoot.ReachAlike t.relativeRoot segments)
include h alike

theorem containsRun : Target.containsRun segments s.rootSegments =
    Target.containsRun segments t.rootSegments := by
  rcases alike with ⟨sPlain, tPlain⟩ | ⟨free, dots | apart⟩
  · rw [rootSegments_plain sPlain, rootSegments_plain tPlain, h.nameSegments]
  · rw [containsRun_rootSegments free, containsRun_rootSegments free, dots, h.nameSegments]
  · rw [containsRun_rootSegments free, containsRun_rootSegments free, ← h.nameSegments, apart,
      Bool.and_false, Bool.and_false]

theorem depth (reached : Target.containsRun segments s.rootSegments = true) :
    s.relativeRoot.components.length = t.relativeRoot.components.length := by
  have plain : s.relativeRoot.hasDot = false ∧ t.relativeRoot.hasDot = false := by
    have other := reached
    rw [containsRun h alike] at other
    rcases alike with plain | ⟨free, -⟩
    · exact plain
    · rw [containsRun_rootSegments free, Bool.and_eq_true, Bool.not_eq_true'] at reached other
      exact ⟨reached.1, other.1⟩
  rw [Path.components_of_not_hasDot plain.1, Path.components_of_not_hasDot plain.2, h.relativeRoot]

end Respelt
end Service

/-- One entry, but for dots that stand for the directory itself and slashes in the root. -/
structure Config.ServiceEntry.Respelt (e f : Config.ServiceEntry) : Prop where
  rest : { e with root := f.root } = f
  root : Path.dotless ⟨e.root⟩ = Path.dotless ⟨f.root⟩

/-- Two configurations that differ only in how the roots of services are written. -/
structure Settings.Respelt (a b : Settings) : Prop where
  rest : { a with services := b.services } = b
  services : List.Forall₂ Config.ServiceEntry.Respelt a.services b.services

def Settings.ReachAlike (a b : Settings) (segments : List (List Char)) : Prop :=
  List.Forall₂ (fun e f : Config.ServiceEntry => Path.ReachAlike ⟨e.root⟩ ⟨f.root⟩ segments)
    a.services b.services

section

variable {a b : Settings} {r r' : Registry}

/-- An entry under another root makes the same service under that root. -/
theorem Service.ofEntry_root {e : Config.ServiceEntry} {s : Service} (made : ofEntry a e = .ok s)
    (root : String) (entries : List Config.ServiceEntry) :
    s.root = a.projectRoot.join ⟨e.root⟩ ∧ s.relativeRoot = ⟨e.root⟩ ∧
      ofEntry { a with services := entries } { e with root := root } =
        .ok { s with root := a.projectRoot.join ⟨root⟩, relativeRoot := ⟨root⟩ } := by
  rw [ofEntry] at made
  split at made
  · next language known =>
    obtain ⟨l, eq, made⟩ := bind_eq_ok.1 made
    obtain ⟨included, includes, made⟩ := bind_eq_ok.1 made
    obtain ⟨excluded, excludes, made⟩ := bind_eq_ok.1 made
    obtain rfl : language = l := Except.ok.inj eq
    obtain rfl := Except.ok.inj made
    refine ⟨rfl, rfl, ?_⟩
    rw [ofEntry]
    simp only [known, includes, excludes]
    exact bind_eq_ok.2 ⟨language, rfl,
      bind_eq_ok.2 ⟨included, rfl, bind_eq_ok.2 ⟨excluded, rfl, rfl⟩⟩⟩
  · cases made

theorem Service.ofEntry_respelt (respelt : a.Respelt b) (rooted : a.projectRoot.text ≠ "")
    {e f : Config.ServiceEntry} (twin : e.Respelt f) {s : Service}
    (made : Service.ofEntry a e = .ok s) : ∃ t, Service.ofEntry b f = .ok t ∧ s.Respelt t := by
  obtain ⟨root, relativeRoot, other⟩ := ofEntry_root made f.root b.services
  rw [respelt.rest, twin.rest] at other
  refine ⟨_, other, rfl, ?_, ?_⟩
  · rw [root]
    exact Path.components_join_congr rooted twin.root
  · rw [relativeRoot]
    exact twin.root

namespace Registry

/-- Two registries that differ only in how the roots of services are written. -/
structure Respelt (r r' : Registry) : Prop where
  projectRoot : r.projectRoot = r'.projectRoot
  services : List.Forall₂ Service.Respelt r.services r'.services

theorem register_respelt (respelt : a.Respelt b) (rooted : a.projectRoot.text ≠ "")
    {es fs : List Config.ServiceEntry} (twins : List.Forall₂ Config.ServiceEntry.Respelt es fs)
    {taken : List String} {services : List Service} (made : register a taken es = .ok services) :
    ∃ services', register b taken fs = .ok services' ∧
      List.Forall₂ Service.Respelt services services' := by
  induction twins generalizing taken services with
  | nil =>
    cases made
    exact ⟨[], rfl, .nil⟩
  | @cons e f es fs twin _ ih =>
    obtain ⟨new, s, rest, first, later, rfl⟩ := register_cons made
    have name : e.name = f.name := twin.rest ▸ rfl
    obtain ⟨t, first', same⟩ := Service.ofEntry_respelt respelt rooted twin first
    obtain ⟨rest', later', others⟩ := ih later
    refine ⟨t :: rest', ?_, .cons same others⟩
    rw [name] at new later'
    simp [register, new, first', later', bind, Except.bind, pure, Except.pure]

theorem register_relativeRoots {taken : List String} {entries : List Config.ServiceEntry}
    {services : List Service} (made : register a taken entries = .ok services) :
    services.map Service.relativeRoot = entries.map fun e => ⟨e.root⟩ := by
  induction entries generalizing taken services with
  | nil =>
    cases made
    rfl
  | cons e entries ih =>
    obtain ⟨-, s, rest, first, later, rfl⟩ := register_cons made
    rw [List.map_cons, List.map_cons, ih later, (Service.ofEntry_root first e.root []).2.1]

theorem ofSettings_relativeRoots (built : ofSettings a = .ok r) :
    r.services.map Service.relativeRoot = a.services.map fun e => ⟨e.root⟩ := by
  obtain ⟨services, made, built⟩ := bind_eq_ok.1 built
  split at built
  · cases built
  · cases built
    exact register_relativeRoots made

theorem dangling?_eq_none_iff {services : List Service} : dangling? services = none ↔
    ∀ d ∈ services.flatMap Service.dependencies, d.service ∈ services.map Service.name := by
  simp only [dangling?, List.find?_eq_none, List.mem_flatMap, List.mem_map, Prod.forall,
    Bool.not_eq_true', Bool.not_eq_false, List.any_eq_true, decide_eq_true_eq]
  constructor
  · rintro none d ⟨s, hs, hd⟩
    exact none s d ⟨s, hs, d, hd, rfl⟩
  · rintro all s d ⟨s', hs, d', hd, eq⟩
    cases eq
    exact all d ⟨s, hs, hd⟩

theorem names_of_respelt {services services' : List Service}
    (twins : List.Forall₂ Service.Respelt services services') :
    services.map Service.name = services'.map Service.name := by
  induction twins with
  | nil => rfl
  | cons twin _ ih => rw [List.map_cons, List.map_cons, twin.name, ih]

theorem dependencies_of_respelt {services services' : List Service}
    (twins : List.Forall₂ Service.Respelt services services') :
    services.flatMap Service.dependencies = services'.flatMap Service.dependencies := by
  induction twins with
  | nil => rfl
  | cons twin _ ih => rw [List.flatMap_cons, List.flatMap_cons, twin.dependencies, ih]

theorem ofSettings_respelt (respelt : a.Respelt b) (rooted : a.projectRoot.text ≠ "")
    (built : ofSettings a = .ok r) : ∃ r', ofSettings b = .ok r' ∧ r.Respelt r' := by
  obtain ⟨services, made, built⟩ := bind_eq_ok.1 built
  split at built
  · cases built
  · next whole =>
    obtain rfl := Except.ok.inj built
    obtain ⟨services', made', twins⟩ := register_respelt respelt rooted respelt.services made
    have whole' : dangling? services' = none := by
      rw [dangling?_eq_none_iff] at whole ⊢
      rwa [← names_of_respelt twins, ← dependencies_of_respelt twins]
    refine ⟨⟨b.projectRoot, services'⟩, bind_eq_ok.2 ⟨services', made', ?_⟩, ?_, twins⟩
    · rw [whole']
      rfl
    · rw [← respelt.rest]

end Registry
end

/-- Of lists of twins whose matches have one key, the last greatest matches are twins. -/
theorem lastMaxBy_filter_forall₂ {α β : Type} {R : α → β → Prop} {f : α → Nat} {g : β → Nat}
    {p : α → Bool} {q : β → Bool} {l : List α} {m : List β}
    (twins : List.Forall₂ (fun a b => R a b ∧ p a = q b ∧ (p a = true → f a = g b)) l m) :
    Option.Rel (fun a b => R a b ∧ f a = g b) (lastMaxBy f (l.filter p)) (lastMaxBy g (m.filter q)) := by
  induction twins with
  | nil => exact .none
  | @cons a b l m twin _ ih =>
    obtain ⟨rel, alike, key⟩ := twin
    cases pass : p a with
    | false => simpa [pass, ← alike] using ih
    | true =>
      have keys := key pass
      rw [List.filter_cons_of_pos pass, List.filter_cons_of_pos (alike ▸ pass), lastMaxBy, lastMaxBy]
      revert ih
      cases lastMaxBy f (l.filter p) <;> cases lastMaxBy g (m.filter q) <;> intro ih <;> cases ih
      · exact .some ⟨rel, keys⟩
      · next other =>
        simp only [keys, other.2]
        split
        · exact .some other
        · exact .some ⟨rel, keys⟩

theorem map_eq_of_rel {α β γ : Type} {R : α → β → Prop} {f : α → γ} {g : β → γ} {o : Option α}
    {o' : Option β} (rel : Option.Rel R o o') (same : ∀ a b, R a b → f a = g b) :
    o.map f = o'.map g := by
  cases rel with
  | none => rfl
  | some rel => exact congrArg some (same _ _ rel)

def Registry.ReachAlike (r r' : Registry) (segments : List (List Char)) : Prop :=
  List.Forall₂ (fun s t : Service => s.relativeRoot.ReachAlike t.relativeRoot segments)
    r.services r'.services

namespace Registry.Respelt

variable {r r' : Registry} {s t : Service}

theorem find? (h : r.Respelt r') (name : String) :
    Option.Rel Service.Respelt (r.find? name) (r'.find? name) := by
  rw [Registry.find?, Registry.find?]
  obtain ⟨-, twins⟩ := h
  generalize r.services = services at twins
  generalize r'.services = services' at twins
  induction twins with
  | nil => exact .none
  | @cons s t _ _ twin _ ih =>
    rw [List.find?_cons, List.find?_cons, ← twin.name]
    split
    · exact .some twin
    · exact ih

theorem owner? (h : r.Respelt r') (p : Path) :
    (r.owner? p).map Service.name = (r'.owner? p).map Service.name :=
  map_eq_of_rel (lastMaxBy_filter_forall₂ (h.services.imp fun _ _ twin =>
      ⟨twin, twin.contains p, fun _ => congrArg List.length twin.root⟩))
    fun _ _ twin => twin.1.name

theorem moduleOwner? (h : r.Respelt r') {segments : List (List Char)} (alike : r.ReachAlike r' segments) :
    (r.moduleOwner? segments).map Service.name = (r'.moduleOwner? segments).map Service.name := by
  have twins : List.Forall₂ (fun s t : Service => s.Respelt t ∧
      s.relativeRoot.ReachAlike t.relativeRoot segments) r.services r'.services :=
    List.forall₂_iff_zip.2 ⟨h.services.length_eq, fun pair =>
      ⟨(List.forall₂_iff_zip.1 h.services).2 pair, (List.forall₂_iff_zip.1 alike).2 pair⟩⟩
  exact map_eq_of_rel (lastMaxBy_filter_forall₂ (twins.imp fun _ _ twin =>
      ⟨twin.1, twin.1.containsRun twin.2, twin.1.depth twin.2⟩))
    fun _ _ twin => twin.1.name

theorem importOwner? (h : r.Respelt r') {l : Language} {i : Import}
    (alike : i.isRelative = true ∨ r.ReachAlike r' (i.segments l)) :
    (r.importOwner? l i).map Service.name = (r'.importOwner? l i).map Service.name := by
  rw [Registry.importOwner?, Registry.importOwner?]
  split
  · rw [h.projectRoot]
    cases (i.place l).collapse? with
    | none => rfl
    | some p => exact h.owner? _
  · next plain => exact h.moduleOwner? (alike.resolve_left plain)

theorem violation? (h : r.Respelt r') (twin : s.Respelt t) {i : Import}
    (alike : i.isRelative = true ∨ r.ReachAlike r' (i.segments s.language)) :
    r.violation? s i = r'.violation? t i := by
  have owner := h.importOwner? alike
  rw [Registry.violation?, Registry.violation?, ← twin.language, ← twin.name]
  generalize r.importOwner? s.language i = o at owner
  generalize r'.importOwner? s.language i = o' at owner
  cases o <;> cases o' <;> simp_all

theorem boundaryViolations (h : r.Respelt r') {scans : List Scan}
    (alike : ∀ scan ∈ scans, ∀ s, r.find? scan.service = some s → ∀ i ∈ scan.imports,
      i.isRelative = true ∨ r.ReachAlike r' (i.segments s.language)) :
    r'.boundaryViolations scans = r.boundaryViolations scans := by
  symm
  rw [Registry.boundaryViolations, Registry.boundaryViolations]
  refine congrArg _ (List.flatMap_congr fun scan hscan => ?_)
  have importer := h.find? scan.service
  rw [scanViolations, scanViolations]
  generalize found : r.find? scan.service = s at importer
  generalize r'.find? scan.service = t at importer
  cases importer with
  | none => rfl
  | some twin => exact List.filterMap_congr fun i hi => h.violation? twin (alike scan hscan _ found i hi)

theorem alike_of_settings {a b : Settings} (built : ofSettings a = .ok r) (built' : ofSettings b = .ok r')
    {segments : List (List Char)} (alike : a.ReachAlike b segments) :
    r.ReachAlike r' segments := by
  have roots : List.Forall₂ (Path.ReachAlike · · segments) (r.services.map Service.relativeRoot)
      (r'.services.map Service.relativeRoot) := by
    rw [ofSettings_relativeRoots built, ofSettings_relativeRoots built', List.forall₂_map_left_iff,
      List.forall₂_map_right_iff]
    exact alike
  rwa [List.forall₂_map_left_iff, List.forall₂_map_right_iff] at roots

end Registry.Respelt

theorem FileTree.resolve_of_readText {tree : FileTree} {p : Path} {s : String}
    (read : tree.readText p = .ok s) : ∃ found, tree.resolve p = .ok found := by
  rw [readText, FileTree.read] at read
  cases resolved : tree.resolve p with
  | ok found => exact ⟨found, rfl⟩
  | error e => simp [resolved] at read

/-- The project root of settings that were loaded is not empty: it stands above a file that could be
read, and so above an absolute path. -/
theorem Settings.load_rooted {tree : FileTree} {dir : Path} {named : Option Path} {settings : Settings}
    (loaded : load tree dir named = .ok settings) : settings.projectRoot.text ≠ "" := by
  rw [load] at loaded
  split at loaded
  · obtain ⟨path, -, loaded⟩ := bind_eq_ok.1 loaded
    obtain ⟨source, read, loaded⟩ := bind_eq_ok.1 loaded
    obtain ⟨file, -, loaded⟩ := bind_eq_ok.1 loaded
    have readable : ∃ s, tree.readText (dir.join path) = .ok s := by
      cases read' : tree.readText (dir.join path) with
      | ok s => exact ⟨s, rfl⟩
      | error e => simp [read', Except.mapError] at read
    obtain ⟨s, read⟩ := readable
    obtain ⟨⟨names, node⟩, resolved⟩ := FileTree.resolve_of_readText read
    have canonical : tree.canonical (dir.join path) = .ok (FileTree.pathOf names) := by
      rw [FileTree.canonical, resolved]
      rfl
    obtain rfl := Except.ok.inj loaded
    rw [canonical]
    change ((FileTree.pathOf names).parent?.getD ⟨"."⟩).text ≠ ""
    cases above : (FileTree.pathOf names).parent? with
    | none => decide
    | some up => exact Path.parent?_ne (by simp [FileTree.pathOf, Path.isAbsolute]) above
  · cases loaded

/-- How roots are written does not count for the boundary report, but for dots in front of absolute
imports: these reach no root that has a dot among its pieces. Where every absolute import reaches the
roots as the one configuration writes them and as the other does alike, the reports are the same. -/
theorem Registry.boundaryViolations_respelt {a b : Settings} {r : Registry} (respelt : a.Respelt b)
    (rooted : a.projectRoot.text ≠ "") (built : ofSettings a = .ok r) :
    (∃ r', ofSettings b = .ok r' ∧ ∀ scans : List Scan,
      (∀ scan ∈ scans, ∀ s, r.find? scan.service = some s → ∀ i ∈ scan.imports,
        i.isRelative = true ∨ a.ReachAlike b (i.segments s.language)) →
      r'.boundaryViolations scans = r.boundaryViolations scans) ∧
    ∀ l (i : Import) owner, i.isRelative = false → ['.'] ∉ i.segments l →
      r.importOwner? l i = some owner → owner.relativeRoot.hasDot = false := by
  constructor
  · obtain ⟨r', built', twins⟩ := ofSettings_respelt respelt rooted built
    refine ⟨r', built', fun scans alike => twins.boundaryViolations fun scan hscan s found i hi => ?_⟩
    exact (alike scan hscan s found i hi).imp_right (Respelt.alike_of_settings built built')
  · intro l i owner absolute free found
    rw [importOwner?, absolute, if_neg Bool.false_ne_true] at found
    obtain ⟨before, after, eq, -⟩ := lastMaxBy_split found
    have reached : owner ∈ r.services.filter fun s =>
        Target.containsRun (i.segments l) s.rootSegments := by simp [eq]
    have run := (List.mem_filter.1 reached).2
    rw [Service.containsRun_rootSegments free, Bool.and_eq_true, Bool.not_eq_true'] at run
    exact run.1

/-- A library and a service beside it, with the root of the library to be written in. -/
def besideSettings (root : String) : Settings where
  projectRoot := ⟨"/repo"⟩
  configPath := ⟨"/repo/.crossdeps.toml"⟩
  checks := .all
  exclude := []
  includeTests := false
  services := [⟨"lib", "go", root, [], [], [], [], []⟩, ⟨"app", "go", "app", [], [], [], [], []⟩]

def besideRegistry (root : String) : Registry where
  projectRoot := ⟨"/repo"⟩
  services := [⟨"lib", .go, (⟨"/repo"⟩ : Path).join ⟨root⟩, ⟨root⟩, ⟨none, none, false⟩, [], [], []⟩,
    ⟨"app", .go, ⟨"/repo/app"⟩, ⟨"app"⟩, ⟨none, none, false⟩, [], [], []⟩]

theorem beside_built (root : String) :
    Registry.ofSettings (besideSettings root) = .ok (besideRegistry root) := by
  have go : Language.ofName? "go" = some .go := by cbv
  have unset : Service.globs [] = .ok none := by cbv
  have app : (⟨"/repo"⟩ : Path).join ⟨"app"⟩ = ⟨"/repo/app"⟩ := by cbv
  refine bind_eq_ok.2 ⟨(besideRegistry root).services, ?_, rfl⟩
  simp [Registry.register, Service.ofEntry, besideSettings, besideRegistry, go, unset, app, bind,
    Except.bind, pure, Except.pure, distinct]

theorem beside_respelt {root root' : String} (same : Path.dotless ⟨root⟩ = Path.dotless ⟨root'⟩) :
    (besideSettings root).Respelt (besideSettings root') :=
  ⟨rfl, .cons ⟨rfl, same⟩ (.cons ⟨rfl, rfl⟩ .nil)⟩

def moduleImport : Import := ⟨⟨"app/main.go"⟩, 1, "x/lib/y", .plainImport⟩

theorem Registry.boundaryViolations_respelt_slashes :
    (besideSettings "lib").Respelt (besideSettings "lib//") ∧
      ofSettings (besideSettings "lib") = .ok (besideRegistry "lib") ∧
      ∃ r', ofSettings (besideSettings "lib//") = .ok r' ∧
        r'.boundaryViolations [{ service := "app", imports := [moduleImport] }] =
          [⟨"app", "lib", ⟨"app/main.go"⟩, 1, "x/lib/y"⟩] := by
  have respelt : (besideSettings "lib").Respelt (besideSettings "lib//") :=
    beside_respelt (by cbv)
  obtain ⟨⟨r', built', same⟩, -⟩ := boundaryViolations_respelt respelt (by decide) (beside_built "lib")
  refine ⟨respelt, beside_built "lib", r', built', ?_⟩
  rw [same]
  · decide +kernel
  · intro scan hscan s found i hi
    exact .inr (.cons (.inl ⟨by cbv, by cbv⟩) (.cons (.inl ⟨by cbv, by cbv⟩) .nil))

/-- With a dot in front of the root of the library the import of a module in it is not reported. -/
theorem Registry.dot_hides_import :
    (besideSettings "lib").Respelt (besideSettings "./lib") ∧
      ofSettings (besideSettings "lib") = .ok (besideRegistry "lib") ∧
      ofSettings (besideSettings "./lib") = .ok (besideRegistry "./lib") ∧
      (besideRegistry "lib").boundaryViolations [{ service := "app", imports := [moduleImport] }] =
        [⟨"app", "lib", ⟨"app/main.go"⟩, 1, "x/lib/y"⟩] ∧
      (besideRegistry "./lib").boundaryViolations
        [{ service := "app", imports := [moduleImport] }] = [] := by
  have unreached : (besideRegistry "./lib").scanViolations
      { service := "app", imports := [moduleImport] } = [] := by decide
  refine ⟨beside_respelt (by cbv), beside_built _, beside_built _, by decide +kernel, ?_⟩
  simp [boundaryViolations, unreached, sortBy]

end ServiceMap
