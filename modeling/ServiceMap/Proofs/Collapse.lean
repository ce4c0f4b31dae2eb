import Mathlib
import ServiceMap.Audit.Boundaries
import ServiceMap.Proofs.RootSpelling

/-! What is left of a path without its dots. Going up takes the name before, as from a stack; a path
that goes up more often than down on some way from its start leads nowhere. The dots in front of a
Python module name go up so, one package less than there are dots. -/

namespace ServiceMap

namespace Path

def Component.goesDown : Component → Bool
  | .name _ => true
  | _ => false

/-- On some way from the start there are more steps up than down. -/
def Climbs (cs : List Component) : Prop :=
  ∃ front, front <+: cs ∧ front.countP Component.goesDown < front.count .up

/-- Components read with a stack of those that still stand, the last one first. Only names are taken
from the stack, and the root has its place at the bottom. -/
inductive Unwinds : List Component → List Component → List Component → Prop
  | nil {stack} : Unwinds stack [] stack.reverse
  | root {cs out} : Unwinds [.root] cs out → Unwinds [] (.root :: cs) out
  | here {stack cs out} : Unwinds stack cs out → Unwinds stack (.here :: cs) out
  | up {a stack cs out} : Unwinds stack cs out → Unwinds (.name a :: stack) (.up :: cs) out
  | name {a stack cs out} : Unwinds (.name a :: stack) cs out → Unwinds stack (.name a :: cs) out

/-- Where a stack of names stands: at the root, or where a relative path starts. -/
def IsGround (ground : List Component) : Prop := ground = [] ∨ ground = [.root]

namespace Unwinds

variable {stack cs out : List Component} {a : String}

theorem nil_iff : Unwinds stack [] out ↔ stack.reverse = out :=
  ⟨fun | .nil => rfl, fun | rfl => .nil⟩

theorem here_iff : Unwinds stack (.here :: cs) out ↔ Unwinds stack cs out :=
  ⟨fun | .here rest => rest, .here⟩

theorem name_iff : Unwinds stack (.name a :: cs) out ↔ Unwinds (.name a :: stack) cs out :=
  ⟨fun | .name rest => rest, .name⟩

theorem up_iff : Unwinds (.name a :: stack) (.up :: cs) out ↔ Unwinds stack cs out :=
  ⟨fun | .up rest => rest, .up⟩

theorem not_up (h : IsGround stack) : ¬Unwinds stack (.up :: cs) out := by
  intro unwinds
  rcases h with rfl | rfl <;> cases unwinds

end Unwinds

section Stack

variable {ground cs out : List Component} {names : List String}

/-- The names on the stack, the last one first, over the ground. -/
def stackOf (names : List String) (ground : List Component) : List Component :=
  names.map .name ++ ground

theorem stackOf_cons (a : String) (names : List String) (ground : List Component) :
    stackOf (a :: names) ground = .name a :: stackOf names ground := rfl

theorem collapseStep_name (stack : List Component) (a : String) :
    collapseStep stack.reverse (.name a) = some (.name a :: stack).reverse := by
  simp [collapseStep]

theorem collapseStep_up (stack : List Component) (a : String) :
    collapseStep (.name a :: stack).reverse .up = some stack.reverse := by
  simp [collapseStep]

theorem collapseStep_up_ground (h : IsGround ground) : collapseStep ground.reverse .up = none := by
  rcases h with rfl | rfl <;> rfl

/-- Components without a root are taken one by one: a dot is passed over, a name is put on the stack,
and going up takes the last name, unless there is none. -/
@[elab_as_elim]
theorem stack_induction {motive : List String → List Component → Prop}
    (nil : ∀ names, motive names [])
    (here : ∀ names cs, motive names cs → motive names (.here :: cs))
    (name : ∀ names a cs, motive (a :: names) cs → motive names (.name a :: cs))
    (bottom : ∀ cs, motive [] (.up :: cs))
    (up : ∀ a names cs, motive names cs → motive (a :: names) (.up :: cs))
    (names : List String) (cs : List Component) (rootless : .root ∉ cs) : motive names cs := by
  induction cs generalizing names with
  | nil => exact nil names
  | cons c cs ih =>
    obtain ⟨other, below⟩ : .root ≠ c ∧ .root ∉ cs := by simpa using rootless
    cases c with
    | root => exact absurd rfl other
    | here => exact here names cs (ih names below)
    | name a => exact name names a cs (ih (a :: names) below)
    | up =>
      cases names with
      | nil => exact bottom cs
      | cons a names => exact up a names cs (ih names below)

theorem exists_prefix_cons {c : Component} {d : Nat} : (∃ front, front <+: c :: cs ∧
    d + front.countP Component.goesDown < front.count .up) ↔
      ∃ front, front <+: cs ∧ d + (c :: front).countP Component.goesDown < (c :: front).count .up := by
  simp only [List.prefix_cons_iff]
  constructor
  · rintro ⟨_, rfl | ⟨front, rfl, part⟩, lt⟩
    · simp at lt
    · exact ⟨front, part, lt⟩
  · rintro ⟨front, part, lt⟩
    exact ⟨_, .inr ⟨front, rfl, part⟩, lt⟩

/-- The way from a stack of names fails where it goes up more often than there are names. -/
theorem foldlM_eq_none_iff (h : IsGround ground) (rootless : .root ∉ cs) :
    cs.foldlM collapseStep (stackOf names ground).reverse = none ↔
      ∃ front, front <+: cs ∧ names.length + front.countP Component.goesDown < front.count .up := by
  -- the names on the stack count as steps down that were made before
  refine stack_induction ?nil ?here ?name ?bottom ?up names cs rootless
  case nil =>
    intro names
    simp
  case here =>
    intro names cs ih
    rw [exists_prefix_cons]
    simpa [collapseStep, Component.goesDown] using ih
  case name =>
    intro names a cs ih
    rw [exists_prefix_cons, List.foldlM_cons, collapseStep_name, Option.bind_eq_bind, Option.bind_some,
      ← stackOf_cons, ih]
    refine exists_congr fun front => and_congr_right fun _ => ?_
    rw [List.countP_cons_of_pos rfl, List.count_cons_of_ne (by simp), List.length_cons]
    omega
  case bottom =>
    intro cs
    rw [List.foldlM_cons, stackOf, List.map_nil, List.nil_append, collapseStep_up_ground h]
    refine iff_of_true rfl ⟨[.up], ⟨cs, rfl⟩, ?_⟩
    simp [Component.goesDown]
  case up =>
    intro a names cs ih
    rw [exists_prefix_cons, List.foldlM_cons, stackOf_cons, collapseStep_up, Option.bind_eq_bind,
      Option.bind_some, ih]
    refine exists_congr fun front => and_congr_right fun _ => ?_
    rw [List.countP_cons_of_neg (by simp [Component.goesDown]), List.count_cons_self, List.length_cons]
    omega

theorem foldlM_eq_some_iff (h : IsGround ground) (rootless : .root ∉ cs) :
    cs.foldlM collapseStep (stackOf names ground).reverse = some out ↔
      Unwinds (stackOf names ground) cs out := by
  refine stack_induction ?nil ?here ?name ?bottom ?up names cs rootless
  case nil =>
    intro names
    simp [Unwinds.nil_iff]
  case here =>
    intro names cs ih
    exact ih.trans Unwinds.here_iff.symm
  case name =>
    intro names a cs ih
    rw [List.foldlM_cons, collapseStep_name, Option.bind_eq_bind, Option.bind_some, ← stackOf_cons, ih,
      Unwinds.name_iff, stackOf_cons]
  case bottom =>
    intro cs
    rw [List.foldlM_cons, stackOf, List.map_nil, List.nil_append, collapseStep_up_ground h]
    exact iff_of_false nofun (Unwinds.not_up h)
  case up =>
    intro a names cs ih
    rw [List.foldlM_cons, stackOf_cons, collapseStep_up, Option.bind_eq_bind, Option.bind_some, ih,
      Unwinds.up_iff]

/-- What is left are names over the ground, each from the stack or from the way. -/
theorem Unwinds.shape (h : Unwinds (stackOf names ground) cs out) (rootless : .root ∉ cs)
    (standing : IsGround ground) : ∃ left : List String, out = ground ++ left.map .name ∧
      ∀ a ∈ left, a ∈ names ∨ .name a ∈ cs := by
  revert h
  refine stack_induction ?nil ?here ?name ?bottom ?up names cs rootless
  case nil =>
    intro names h
    obtain rfl := Unwinds.nil_iff.1 h
    refine ⟨names.reverse, ?_, by simp +contextual⟩
    rcases standing with rfl | rfl <;> simp [stackOf]
  case here =>
    intro names cs ih h
    obtain ⟨left, eq, from_⟩ := ih (Unwinds.here_iff.1 h)
    exact ⟨left, eq, fun a ha => (from_ a ha).imp_right (List.mem_cons_of_mem _)⟩
  case name =>
    intro names a cs ih h
    obtain ⟨left, eq, from_⟩ := ih (Unwinds.name_iff.1 h)
    refine ⟨left, eq, fun b hb => ?_⟩
    rcases from_ b hb with stacked | later
    · rcases List.mem_cons.1 stacked with rfl | stacked
      · exact .inr List.mem_cons_self
      · exact .inl stacked
    · exact .inr (List.mem_cons_of_mem _ later)
  case bottom =>
    intro cs h
    exact absurd h (Unwinds.not_up standing)
  case up =>
    intro a names cs ih h
    obtain ⟨left, eq, from_⟩ := ih (Unwinds.up_iff.1 h)
    refine ⟨left, eq, fun b hb => ?_⟩
    exact (from_ b hb).imp (List.mem_cons_of_mem _) (List.mem_cons_of_mem _)

/-- Components that have the root in front or not at all are a ground and what comes after it. -/
theorem exists_ground {cs : List Component} (front : .root ∉ cs.tail) :
    ∃ ground rest, IsGround ground ∧ .root ∉ rest ∧ cs = ground ++ rest := by
  cases cs with
  | nil => exact ⟨[], [], .inl rfl, by simp, rfl⟩
  | cons c cs =>
    by_cases root : c = .root
    · exact ⟨[.root], cs, .inr rfl, front, by rw [root]; rfl⟩
    · exact ⟨[], c :: cs, .inl rfl, by simpa [Ne.symm root] using front, rfl⟩

theorem collapseComponents_ground (h : IsGround ground) (cs : List Component) :
    collapseComponents (ground ++ cs) = cs.foldlM collapseStep (stackOf [] ground).reverse := by
  rcases h with rfl | rfl <;> rfl

theorem unwinds_ground (h : IsGround ground) :
    Unwinds [] (ground ++ cs) out ↔ Unwinds (stackOf [] ground) cs out := by
  rcases h with rfl | rfl
  · rfl
  · exact ⟨fun | .root rest => rest, .root⟩

theorem climbs_ground (h : IsGround ground) : Climbs (ground ++ cs) ↔
    ∃ front, front <+: cs ∧ front.countP Component.goesDown < front.count .up := by
  rcases h with rfl | rfl
  · rfl
  · simp only [Climbs, List.singleton_append, List.prefix_cons_iff]
    constructor
    · rintro ⟨_, rfl | ⟨front, rfl, part⟩, lt⟩
      · simp at lt
      · exact ⟨front, part, by simpa [Component.goesDown] using lt⟩
    · rintro ⟨front, part, lt⟩
      exact ⟨_, .inr ⟨front, rfl, part⟩, by simpa [Component.goesDown] using lt⟩

theorem collapseComponents_eq_none_iff (front : .root ∉ cs.tail) :
    collapseComponents cs = none ↔ Climbs cs := by
  obtain ⟨ground, rest, h, rootless, rfl⟩ := exists_ground front
  rw [collapseComponents_ground h, foldlM_eq_none_iff h rootless, climbs_ground h]
  simp

theorem collapseComponents_eq_some_iff (front : .root ∉ cs.tail) :
    collapseComponents cs = some out ↔ Unwinds [] cs out := by
  obtain ⟨ground, rest, h, rootless, rfl⟩ := exists_ground front
  rw [collapseComponents_ground h, foldlM_eq_some_iff h rootless, unwinds_ground h]

/-- What is left stands on the ground of the components and has names of theirs. -/
theorem shape_of_collapseComponents (front : .root ∉ cs.tail) (h : collapseComponents cs = some out) :
    ∃ ground, IsGround ground ∧ ∃ left : List String, out = ground ++ left.map .name ∧
      ∀ a ∈ left, .name a ∈ cs := by
  obtain ⟨ground, rest, standing, rootless, rfl⟩ := exists_ground front
  rw [collapseComponents_eq_some_iff front, unwinds_ground standing] at h
  obtain ⟨left, eq, from_⟩ := h.shape rootless standing
  refine ⟨ground, standing, left, eq, fun a ha => ?_⟩
  exact List.mem_append_right _ ((from_ a ha).resolve_left (by simp))

end Stack

/-- Names are taken as they come. -/
theorem foldlM_names (done : List Component) (names : List String) :
    (names.map .name).foldlM collapseStep done = some (done ++ names.map .name) := by
  induction names generalizing done with
  | nil => simp
  | cons a names ih =>
    have next : done ++ .name a :: names.map .name = (done ++ [.name a]) ++ names.map .name := by simp
    rw [List.map_cons, next, List.foldlM_cons]
    exact ih (done ++ [.name a])

theorem collapseComponents_names {ground : List Component} (h : IsGround ground) (names : List String) :
    collapseComponents (ground ++ names.map .name) = some (ground ++ names.map .name) := by
  rw [collapseComponents_ground h, foldlM_names]
  rcases h with rfl | rfl <;> rfl

theorem foldlM_filter (done cs : List Component) :
    (cs.filter (· ≠ .here)).foldlM collapseStep done = cs.foldlM collapseStep done := by
  induction cs generalizing done with
  | nil => rfl
  | cons c cs ih =>
    by_cases here : c = .here
    · subst here
      rw [List.filter_cons_of_neg (by simp), ih, List.foldlM_cons]
      rfl
    · rw [List.filter_cons_of_pos (by simpa using here), List.foldlM_cons, List.foldlM_cons]
      exact congrArg _ (funext fun done => ih done)

theorem collapseComponents_append (cs ds : List Component) : collapseComponents (cs ++ ds) =
    (collapseComponents cs).bind fun done => ds.foldlM collapseStep done := List.foldlM_append

/-! ## Paths -/

theorem root_not_mem_tail (p : Path) : .root ∉ p.components.tail := by
  have rootless : ∀ ps, .root ∉ named ps := by
    intro ps mem
    obtain ⟨piece, -, eq⟩ := List.mem_map.1 mem
    exact (componentOf_ne piece).1 eq
  rcases p.components_eq_named with eq | eq | ⟨-, eq⟩
  · rw [eq]
    exact fun mem => rootless _ (List.mem_of_mem_tail mem)
  · rw [eq]
    exact rootless _
  · rw [eq]
    exact rootless _

/-- What a component is called is a name that a directory may hold. -/
theorem isName_of_mem_components {p : Path} {a : String} (h : .name a ∈ p.components) :
    isName a = true := by
  have mem : .name a ∈ named p.pieces := by
    rcases p.components_eq_named with eq | eq | ⟨-, eq⟩ <;> simpa [eq] using h
  obtain ⟨piece, hp, eq⟩ := List.mem_map.1 mem
  obtain ⟨hp, named⟩ := List.mem_filter.1 hp
  have free : '/' ∉ piece := Text.not_mem_of_mem_split hp
  have other : piece ≠ [] ∧ piece ≠ ['.'] := by simpa [isIdle] using named
  unfold componentOf at eq
  split at eq
  · cases eq
  · next up =>
    cases eq
    simp [isName, free, up, other, ← String.toList_inj]

theorem joinWith_eq_intercalate (sep : Char) (ps : List (List Char)) :
    Text.joinWith sep ps = [sep].intercalate ps := by
  induction ps with
  | nil => rfl
  | cons p ps ih =>
    cases ps with
    | nil => simp [Text.joinWith]
    | cons q ps =>
      rw [List.intercalate_cons_cons, ← ih]
      simp [Text.joinWith]

/-- A path without dots is read as the components that it was written for. -/
theorem components_ofComponents {ground : List Component} (h : IsGround ground) {names : List String}
    (valid : ∀ a ∈ names, isName a = true) :
    (ofComponents (ground ++ names.map .name)).components = ground ++ names.map .name := by
  have pieces : ∀ a ∈ names, '/' ∉ a.toList ∧ isIdle a.toList = false ∧ componentOf a.toList = .name a :=
    fun a ha => piece_of_isName (valid a ha)
  have free : ∀ piece ∈ names.map String.toList, '/' ∉ piece :=
    List.forall_mem_map.2 fun a ha => (pieces a ha).1
  have read : named (names.map String.toList) = names.map .name := by
    rw [named, List.filter_eq_self.2, List.map_map]
    · exact List.map_congr_left fun a ha => (pieces a ha).2.2
    · exact List.forall_mem_map.2 fun a ha => by simp [(pieces a ha).2.1]
  have body : "/".intercalate ((names.map Component.name).map Component.toText) =
      String.ofList (Text.joinWith '/' (names.map String.toList)) := by
    rw [← String.toList_inj, String.toList_intercalate, joinWith_eq_intercalate]
    simp [Function.comp_def, Component.toText]
  have start : ∀ piece ∈ (names.map String.toList).head?, isIdle piece = false := by
    intro piece hp
    obtain ⟨a, ha, rfl⟩ := List.mem_map.1 (List.mem_of_mem_head? hp)
    exact (pieces a ha).2.1
  rcases h with rfl | rfl
  -- without a root the text starts with the first name, and that one is not read as a start
  · have text : ofComponents ([] ++ names.map .name) =
        ⟨Parts.text ⟨none, names.map String.toList⟩⟩ := by
      cases names with
      | nil => rfl
      | cons a names => exact congrArg Path.mk body
    have plain : Parts.Plain ⟨none, names.map String.toList⟩ := ⟨free, .inl ⟨rfl, start⟩⟩
    rw [text, plain.components_text, components_eq, read]
    rfl
  · have text : ofComponents ([.root] ++ names.map .name) =
        ⟨Parts.text ⟨some .root, names.map String.toList⟩⟩ := congrArg (Path.mk ∘ ("/" ++ ·)) body
    have plain : Parts.Plain ⟨some .root, names.map String.toList⟩ := ⟨free, .inr (.inl rfl)⟩
    rw [text, plain.components_text, components_eq, read]
    rfl

/-- The components of a collapsed path are what is left of those of the path, and they stand alone. -/
theorem exists_of_collapse? {p q : Path} (h : p.collapse? = some q) :
    collapseComponents p.components = some q.components ∧ q = ofComponents q.components ∧
      collapseComponents q.components = some q.components ∧
      ∀ c ∈ q.components, c ≠ .here ∧ c ≠ .up := by
  obtain ⟨out, left, rfl⟩ := Option.map_eq_some_iff.1 h
  obtain ⟨ground, standing, names, rfl, from_⟩ := shape_of_collapseComponents p.root_not_mem_tail left
  rw [components_ofComponents standing fun a ha => isName_of_mem_components (from_ a ha)]
  refine ⟨left, rfl, collapseComponents_names standing names, fun c hc => ?_⟩
  rcases List.mem_append.1 hc with hc | hc
  · rcases standing with rfl | rfl <;> simp_all
  · obtain ⟨a, -, rfl⟩ := List.mem_map.1 hc
    simp

theorem collapseComponents_dotless (p : Path) :
    collapseComponents p.dotless = collapseComponents p.components := foldlM_filter _ _

theorem dotless_join {p : Path} (base : Path) (relative : p.isAbsolute = false) :
    (base.join p).dotless = base.dotless ++ p.dotless := by
  by_cases empty : base.text = ""
  · have alone : base.join p = p := by
      unfold join
      simp [relative, empty]
    rw [alone, dotless, dotless, components_eq_nil_iff.2 empty]
    rfl
  · rw [dotless, components_join empty relative, List.filter_append, List.filter_filter]
    simp [dotless]

/-- Collapsing the front of a path first changes nothing. -/
theorem collapse?_join {p q r : Path} (h : p.collapse? = some q) (relative : r.isAbsolute = false) :
    (p.join r).collapse? = (q.join r).collapse? := by
  obtain ⟨left, -, again, -⟩ := exists_of_collapse? h
  have front : collapseComponents p.dotless = collapseComponents q.dotless := by
    rw [collapseComponents_dotless, collapseComponents_dotless, left, again]
  rw [collapse?, collapse?, ← collapseComponents_dotless, ← collapseComponents_dotless,
    dotless_join p relative, dotless_join q relative, collapseComponents_append,
    collapseComponents_append, front]

theorem parent?_of_trimEnd {p : Path} {start : Option Component} {front : List (List Char)}
    {piece : List Char} (h : p.parts.trimEnd = ⟨start, front ++ [piece]⟩) :
    p.parent? = some ⟨(Parts.trimEnd ⟨start, front⟩).text⟩ := by
  unfold parent?
  rw [h]
  cases front with
  | nil => rfl
  | cons first front =>
    change some (Path.mk (Parts.trimEnd ⟨start, (first :: front ++ [piece]).dropLast⟩).text) = _
    rw [List.dropLast_concat]

theorem parent?_of_trimEnd_nil {p : Path} {start : Option Component}
    (h : p.parts.trimEnd = ⟨start, []⟩) : p.parent?.getD ⟨""⟩ = ⟨""⟩ := by
  unfold parent?
  rw [h]
  cases start with
  | none => rfl
  | some c => cases c <;> rfl

/-- The directory of a file has the components before the last one. -/
theorem dotless_parent (p : Path) : (p.parent?.getD ⟨""⟩).dotless = p.dotless.dropLast := by
  have plain : p.parts.trimEnd.Plain := (plain_parts p).trimEnd
  have whole : p.dotless = p.parts.trimEnd.components.filter (· ≠ .here) :=
    congrArg (fun cs => cs.filter (· ≠ .here)) (trimEnd_components p.parts).symm
  obtain ⟨start, body, eq⟩ : ∃ start body, p.parts.trimEnd = ⟨start, body⟩ := ⟨_, _, rfl⟩
  rw [whole, eq, components_eq]
  rw [eq] at plain
  rcases List.eq_nil_or_concat body with rfl | ⟨front, piece, rfl⟩
  · rw [parent?_of_trimEnd_nil eq]
    rcases plain.start with ⟨rfl, -⟩ | rfl | rfl <;> rfl
  · rw [List.concat_eq_append] at eq plain ⊢
    have last : isIdle piece = false := by
      have ne : p.parts.trimEnd.body ≠ [] := by simp [eq]
      have stays : ¬isIdle (p.parts.trimEnd.body.getLast ne) = true :=
        List.rdropWhile_last_not isIdle p.parts.body ne
      simpa [eq] using stays
    have upper : Parts.Plain ⟨start, front⟩ := by
      refine ⟨fun q hq => plain.free q (List.mem_append_left _ hq), ?_⟩
      refine plain.start.imp_left fun ⟨alone, first⟩ => ⟨alone, fun q hq => first q ?_⟩
      rw [List.head?_append, Option.mem_def.1 hq]
      rfl
    have stays : componentOf piece ≠ .here := (componentOf_ne piece).2
    rw [parent?_of_trimEnd eq, Option.getD_some, dotless, upper.trimEnd.components_text,
      trimEnd_components, components_eq, named_append, named_cons last, named_nil, ← List.append_assoc,
      List.filter_append _ [_], List.filter_cons_of_pos (by simpa using stays), List.filter_nil,
      List.dropLast_concat]

/-- What collapsing leaves is written so that it is read again. -/
theorem map_components_collapse? (p : Path) :
    p.collapse?.map components = collapseComponents p.components := by
  cases collapsed : p.collapse? with
  | none => exact (Option.map_eq_none_iff.1 collapsed).symm
  | some q => exact (exists_of_collapse? collapsed).1.symm

end Path

open ServiceMap.Path

/-- A name with dots has the same parts when the dots are read as slashes. -/
theorem split_dotsToSlashes {s : List Char} (free : '/' ∉ s) :
    Text.split '/' (Import.dotsToSlashes s) = Text.split '.' s := by
  induction s with
  | nil => rfl
  | cons c s ih =>
    obtain ⟨other, free⟩ : '/' ≠ c ∧ '/' ∉ s := by simpa using free
    have next := ih free
    rw [Import.dotsToSlashes] at next ⊢
    rw [List.map_cons, Text.split_cons, Text.split_cons, next]
    by_cases dot : c = '.'
    · simp [dot]
    · simp [dot, other.symm]

/-- The parts of a name with dots that are not empty. -/
def nameParts (name : List Char) : List Component :=
  ((Text.split '.' name).filter (· ≠ [])).map fun part => .name (String.ofList part)

theorem named_split_dot (name : List Char) : named (Text.split '.' name) = nameParts name := by
  have plain : ∀ part ∈ Text.split '.' name, part ≠ ['.'] ∧ part ≠ ['.', '.'] := by
    intro part hp
    have free : '.' ∉ part := Text.not_mem_of_mem_split hp
    refine ⟨?_, ?_⟩ <;>
    · rintro rfl
      simp at free
  have kept : (Text.split '.' name).filter (!isIdle ·) = (Text.split '.' name).filter (· ≠ []) := by
    refine List.filter_congr fun part hp => ?_
    simp [isIdle, (plain part hp).1]
  rw [named, kept, nameParts]
  refine List.map_congr_left fun part hp => ?_
  simp [componentOf, (plain part (List.mem_filter.1 hp).1).2]

theorem dotless_ups (dir : Path) (n : Nat) :
    ((List.replicate n ⟨".."⟩).foldl Path.join dir).dotless = dir.dotless ++ List.replicate n .up := by
  induction n generalizing dir with
  | zero => simp
  | succ n ih =>
    have up : Path.dotless ⟨".."⟩ = [.up] := by decide
    rw [List.replicate_succ, List.foldl_cons, ih, dotless_join dir (by decide), up, List.append_assoc,
      List.replicate_succ]
    rfl

namespace Import

variable {i : Import} {up : Nat} {name : List Char}

theorem isAbsolute_dotsToSlashes (undotted : name.head? ≠ some '.') (free : '/' ∉ name) :
    Path.isAbsolute ⟨String.ofList (dotsToSlashes name)⟩ = false := by
  cases name with
  | nil => rfl
  | cons c name =>
    have dot : c ≠ '.' := by simpa using undotted
    have slash : c ≠ '/' := fun eq => by simp [eq] at free
    simp [isAbsolute, dotsToSlashes, dot, slash]

/-- A module name without dots in front is a path of its parts. -/
theorem dotless_dotsToSlashes (undotted : name.head? ≠ some '.') (free : '/' ∉ name) :
    Path.dotless ⟨String.ofList (dotsToSlashes name)⟩ = nameParts name := by
  rw [dotless, ← named_split (isAbsolute_dotsToSlashes undotted free), String.toList_ofList,
    split_dotsToSlashes free, named_split_dot]

/-- Where a Python module with dots in front of its name stands: one package up for each dot but the
first, and from there down along the parts of the name. -/
theorem dotless_place (target : i.target.toList = List.replicate (up + 1) '.' ++ name)
    (undotted : name.head? ≠ some '.') (free : '/' ∉ name) :
    (i.place .python).dotless =
      i.file.dotless.dropLast ++ List.replicate up .up ++ nameParts name := by
  have stop : ∀ c ∈ name.head?, decide (c = '.') = false := fun c hc =>
    decide_eq_false fun eq => undotted (eq ▸ hc)
  have level : ∀ c ∈ List.replicate (up + 1) '.', decide (c = '.') = true := by simp
  obtain ⟨dots, rest⟩ := Text.takeWhile_dropWhile_append level stop
  rw [← target] at dots rest
  have relative : i.target.toList.head? = some '.' := by
    rw [target]
    rfl
  have base : ((List.replicate up ⟨".."⟩).foldl Path.join (i.file.parent?.getD ⟨""⟩)).dotless =
      i.file.dotless.dropLast ++ List.replicate up .up := by
    rw [dotless_ups, dotless_parent]
  simp only [place, dots, rest, relative, List.length_replicate, Nat.add_sub_cancel, decide_true,
    Bool.and_self, if_true]
  by_cases empty : name = []
  · rw [if_pos empty, base, empty]
    simp [nameParts]
  · rw [if_neg empty, dotless_join _ (isAbsolute_dotsToSlashes undotted free), base,
      dotless_dotsToSlashes undotted free]

end Import

namespace Path

theorem foldlM_ups (n : Nat) (dir : List String) :
    (List.replicate n .up).foldlM collapseStep (dir.map .name) =
      if dir.length < n then none else some ((dir.take (dir.length - n)).map .name) := by
  induction n generalizing dir with
  | zero => simp
  | succ n ih =>
    rw [List.replicate_succ, List.foldlM_cons]
    rcases List.eq_nil_or_concat dir with rfl | ⟨front, a, rfl⟩
    · rfl
    · have step : collapseStep ((front.concat a).map .name) .up = some (front.map .name) := by
        simp [collapseStep]
      have cut : (front.concat a).take ((front.concat a).length - (n + 1)) =
          front.take (front.length - n) := by
        rw [List.concat_eq_append, List.length_append, List.length_singleton, Nat.add_sub_add_right,
          List.take_append_of_le_length (Nat.sub_le _ _)]
      rw [step, cut, Option.bind_eq_bind, Option.bind_some, ih]
      simp

/-- Below a directory, some steps up and then some names down. -/
theorem collapseComponents_levels (dir : List String) (up : Nat) (parts : List String) :
    collapseComponents (dir.map .name ++ List.replicate up .up ++ parts.map .name) =
      if dir.length < up then none
      else some ((dir.take (dir.length - up)).map .name ++ parts.map .name) := by
  have start : collapseComponents (dir.map .name) = some (dir.map .name) :=
    collapseComponents_names (.inl rfl) dir
  rw [collapseComponents_append, collapseComponents_append, start, Option.bind_some, foldlM_ups]
  split
  · rfl
  · rw [Option.bind_some, foldlM_names]

theorem exists_names {cs : List Component} (down : ∀ c ∈ cs, c.goesDown = true) :
    ∃ names : List String, cs = names.map .name := by
  induction cs with
  | nil => exact ⟨[], rfl⟩
  | cons c cs ih =>
    obtain ⟨first, down⟩ := List.forall_mem_cons.1 down
    obtain ⟨names, rfl⟩ := ih down
    cases c with
    | name a => exact ⟨a :: names, rfl⟩
    | _ => cases first

/-- A path without its dots: what is left when the path is read with a stack. -/
structure CollapsesTo (p q : Path) : Prop where
  unwinds : Unwinds [] p.components q.components
  dotless : ∀ c ∈ q.components, c ≠ .here ∧ c ≠ .up
  again : q.collapse? = some q
  join : ∀ r : Path, r.isAbsolute = false → (p.join r).collapse? = (q.join r).collapse?

theorem collapsesTo {p q : Path} (h : p.collapse? = some q) : p.CollapsesTo q where
  unwinds := (collapseComponents_eq_some_iff p.root_not_mem_tail).1 (exists_of_collapse? h).1
  dotless := (exists_of_collapse? h).2.2.2
  again := by
    obtain ⟨-, text, again, -⟩ := exists_of_collapse? h
    rw [collapse?, again, Option.map_some, ← text]
  join _ relative := collapse?_join h relative

theorem collapse?_eq_none_iff (p : Path) : p.collapse? = none ↔ Climbs p.components := by
  rw [collapse?, Option.map_eq_none_iff, collapseComponents_eq_none_iff p.root_not_mem_tail]

end Path

/-- A relative import leads to where it says. The dots of a path are taken away as from a stack, and
there is no place when there are more of two dots than names on some way from the start; it makes no
difference to what follows when they are taken away early. A Python module with dots in front stands
below the directory of the file, one package up for each dot but the first. -/
theorem Path.collapse_as_written :
    (∀ cs : List Component, .root ∉ cs.tail → (collapseComponents cs = none ↔ Climbs cs) ∧
      ∀ out, collapseComponents cs = some out ↔ Unwinds [] cs out) ∧
    (∀ p : Path, (p.collapse? = none ↔ Climbs p.components) ∧
      ∀ q, p.collapse? = some q → p.CollapsesTo q) ∧
    ∀ (i : Import) (up : Nat) (name : List Char), i.target.toList = List.replicate (up + 1) '.' ++ name →
      name.head? ≠ some '.' → '/' ∉ name → (∀ c ∈ i.file.components, c.goesDown = true) →
        let dir := i.file.components.dropLast
        (i.place .python).collapse?.map components =
          if dir.length < up then none else some (dir.take (dir.length - up) ++ nameParts name) := by
  refine ⟨fun cs front => ⟨collapseComponents_eq_none_iff front, fun out => ?_⟩, fun p => ?_, ?_⟩
  · exact collapseComponents_eq_some_iff front
  · exact ⟨p.collapse?_eq_none_iff, fun q => collapsesTo⟩
  · intro i up name target undotted free down dir
    obtain ⟨names, file⟩ := exists_names down
    have dotless : i.file.dotless = i.file.components :=
      List.filter_eq_self.2 fun c hc => by
        obtain ⟨a, -, rfl⟩ := List.mem_map.1 (file ▸ hc)
        simp
    have above : dir = names.dropLast.map .name := by
      rw [List.map_dropLast, ← file]
    have parts : nameParts name =
        (((Text.split '.' name).filter (· ≠ [])).map String.ofList).map .name := by
      rw [List.map_map]
      rfl
    rw [map_components_collapse?, ← collapseComponents_dotless, Import.dotless_place target undotted free,
      dotless, show i.file.components.dropLast = _ from above, parts, collapseComponents_levels, above,
      List.length_map, List.map_take]

/-- An import of a module two packages above that of the file. -/
def upwardImport : Import := ⟨⟨"app/jobs/main.py"⟩, 1, "...lib..util.", .plainImport⟩

theorem Path.collapse_as_written_upward :
    collapseComponents [.root, .name "a", .up, .up, .name "b"] = none ∧
      (⟨"a/../b//./c/"⟩ : Path).CollapsesTo ⟨"b/c"⟩ ∧
      upwardImport.target.toList = List.replicate 3 '.' ++ "lib..util.".toList ∧
      (∀ c ∈ upwardImport.file.components, c.goesDown = true) ∧
      (upwardImport.place .python).collapse?.map components = some [.name "lib", .name "util"] := by
  obtain ⟨lists, paths, modules⟩ := collapse_as_written
  have climbs : Climbs [.root, .name "a", .up, .up, .name "b"] :=
    ⟨[.root, .name "a", .up, .up], ⟨[.name "b"], rfl⟩, by decide⟩
  have collapsed : (⟨"a/../b//./c/"⟩ : Path).collapse? = some ⟨"b/c"⟩ := by cbv
  have target : upwardImport.target.toList = List.replicate (2 + 1) '.' ++ "lib..util.".toList := by
    decide
  have file : upwardImport.file.components = [.name "app", .name "jobs", .name "main.py"] := by cbv
  have down : ∀ c ∈ upwardImport.file.components, c.goesDown = true := by
    rw [file]
    decide
  refine ⟨(lists _ (by decide)).1.2 climbs, (paths _).2 _ collapsed, target, down, ?_⟩
  rw [modules upwardImport 2 "lib..util.".toList target (by decide) (by decide) down, file]
  cbv

end ServiceMap
