import Mathlib.Data.List.DropRight
import ServiceMap.Path

/-! Paths by their components: what joining, cutting and naming a file do to them, whatever the text
in which a path is written. -/

namespace ServiceMap.Path

/-- What pieces of a path name after its start. -/
def named (pieces : List (List Char)) : List Component := (pieces.filter (!isIdle ·)).map componentOf

@[simp] theorem named_nil : named [] = [] := rfl

@[simp] theorem named_append (ps qs : List (List Char)) : named (ps ++ qs) = named ps ++ named qs := by
  simp [named]

theorem named_cons_idle {p : List Char} (h : isIdle p = true) (ps : List (List Char)) :
    named (p :: ps) = named ps := by
  simp [named, h]

theorem named_cons {p : List Char} (h : isIdle p = false) (ps : List (List Char)) :
    named (p :: ps) = componentOf p :: named ps := by
  simp [named, h]

theorem named_dropWhile (ps : List (List Char)) : named (ps.dropWhile isIdle) = named ps := by
  induction ps with
  | nil => rfl
  | cons p ps ih =>
    cases h : isIdle p with
    | true => rw [List.dropWhile_cons_of_pos h, ih, named_cons_idle h]
    | false => rw [List.dropWhile_cons_of_neg (by simp [h])]

theorem named_reverse (ps : List (List Char)) : named ps.reverse = (named ps).reverse := by
  simp [named]

theorem components_eq (p : Parts) : p.components = p.start.toList ++ named p.body := rfl

@[simp] theorem trimEnd_components (p : Parts) : p.trimEnd.components = p.components := by
  simp only [components_eq, Parts.trimEnd, named_reverse, named_dropWhile, List.reverse_reverse]

theorem componentOf_ne (p : List Char) : componentOf p ≠ .root ∧ componentOf p ≠ .here := by
  unfold componentOf
  split <;> simp

theorem filter_named (ps : List (List Char)) : (named ps).filter (· ≠ .here) = named ps := by
  refine List.filter_eq_self.2 fun c hc => ?_
  obtain ⟨p, -, rfl⟩ := List.mem_map.1 hc
  simp [(componentOf_ne p).2]

/-! ## Joining -/

theorem ofPieces_name {p : List Char} (h : isIdle p = false) (ps : List (List Char)) :
    Parts.ofPieces (p :: ps) = ⟨none, p :: ps⟩ := by
  have differ : p ≠ [] ∧ p ≠ ['.'] := by simpa [isIdle] using h
  unfold Parts.ofPieces
  split
  · next eq => exact absurd (List.cons.inj eq).1 differ.1
  · next eq => exact absurd (List.cons.inj eq).1 differ.2
  · rfl

theorem ofPieces_root {ps : List (List Char)} (ne : ps ≠ []) :
    (Parts.ofPieces ([] :: ps)).components = .root :: named ps := by
  simp [Parts.ofPieces, ne, components_eq]

theorem ofPieces_here (ps : List (List Char)) :
    (Parts.ofPieces (['.'] :: ps)).components = .here :: named ps := rfl

/-- More pieces at the end name more components. Only the empty path has no end for them. -/
theorem ofPieces_append {ps : List (List Char)} (ne : ps ≠ []) (long : ps ≠ [[]])
    (qs : List (List Char)) :
    (Parts.ofPieces (ps ++ qs)).components = (Parts.ofPieces ps).components ++ named qs := by
  cases ps with
  | nil => exact absurd rfl ne
  | cons p ps =>
    rw [List.cons_append]
    cases idle : isIdle p with
    | false =>
      rw [ofPieces_name idle, ofPieces_name idle, components_eq, components_eq, ← List.cons_append,
        named_append]
      rfl
    | true =>
      have start : p = [] ∨ p = ['.'] := by simpa [isIdle] using idle
      rcases start with rfl | rfl
      · have rest : ps ≠ [] := fun eq => long (by rw [eq])
        rw [ofPieces_root rest, ofPieces_root (by simp [rest])]
        simp
      · rw [ofPieces_here, ofPieces_here]
        simp

/-- The components of a relative path, but for a dot in front. -/
theorem named_split {p : Path} (relative : p.isAbsolute = false) :
    named (Text.split '/' p.text.toList) = p.components.filter (· ≠ .here) := by
  unfold components parts
  cases pieces : Text.split '/' p.text.toList with
  | nil => exact absurd pieces (Text.split_ne_nil _ _)
  | cons q qs =>
    cases idle : isIdle q with
    | false => rw [ofPieces_name idle, components_eq, Option.toList_none, List.nil_append, filter_named]
    | true =>
      have start : q = [] ∨ q = ['.'] := by simpa [isIdle] using idle
      rw [named_cons_idle idle]
      rcases start with rfl | rfl
      · -- a path that starts with nothing before a slash is absolute
        have alone : qs = [] := by
          have text := Text.joinWith_split '/' p.text.toList
          rw [pieces] at text
          cases qs with
          | nil => rfl
          | cons r rs => simp [isAbsolute, ← text, Text.joinWith] at relative
        subst alone
        rfl
      · rw [ofPieces_here, List.filter_cons_of_neg (by simp), filter_named]

theorem components_eq_nil_iff {p : Path} : p.components = [] ↔ p.text = "" := by
  refine ⟨fun none => ?_, fun h => by rw [components, parts, h]; rfl⟩
  unfold components parts at none
  have text := Text.joinWith_split '/' p.text.toList
  cases pieces : Text.split '/' p.text.toList with
  | nil => exact absurd pieces (Text.split_ne_nil _ _)
  | cons q qs =>
    rw [pieces] at none text
    cases idle : isIdle q with
    | false =>
      rw [ofPieces_name idle, components_eq, named_cons idle] at none
      cases none
    | true =>
      have start : q = [] ∨ q = ['.'] := by simpa [isIdle] using idle
      rcases start with rfl | rfl
      · cases qs with
        | nil => exact String.toList_inj.1 text.symm
        | cons r rs =>
          rw [ofPieces_root (by simp)] at none
          cases none
      · cases none

/-- Joining puts one slash in front of a relative path, unless there is one. -/
theorem text_join {base p : Path} (ne : base.text ≠ "") (relative : p.isAbsolute = false) :
    ∃ lead, (base.join p).text.toList = lead ++ '/' :: p.text.toList ∧
      (base.text.toList = lead ++ ['/'] ∨ lead ≠ [] ∧ base.text.toList = lead) := by
  have ne : base.text.toList ≠ [] := fun eq => ne (String.toList_inj.1 eq)
  obtain ⟨front, last, eq⟩ := (List.eq_nil_or_concat _).resolve_left ne
  unfold join
  rw [relative, eq]
  by_cases slash : last = '/'
  · refine ⟨front, ?_, .inl (by rw [slash]; simp)⟩
    simp [slash, eq]
  · refine ⟨base.text.toList, ?_, .inr ⟨ne, eq.symm⟩⟩
    simp [slash]

/-- Joining a relative path adds its components; a dot in front of it adds none. -/
theorem components_join {base p : Path} (ne : base.text ≠ "") (relative : p.isAbsolute = false) :
    (base.join p).components = base.components ++ p.components.filter (· ≠ .here) := by
  obtain ⟨lead, text, slash | ⟨lead_ne, plain⟩⟩ := text_join ne relative
  · rw [← named_split relative, components, parts, components, parts, text, slash,
      Text.split_append_sep, Text.split_append_sep, Text.split_nil]
    by_cases start : Text.split '/' lead = [[]]
    · rw [start, List.singleton_append, List.singleton_append, ofPieces_root (Text.split_ne_nil _ _),
        ofPieces_root (by simp)]
      rfl
    · rw [ofPieces_append (Text.split_ne_nil _ _) start, ofPieces_append (Text.split_ne_nil _ _) start]
      simp [show named [[]] = [] from rfl]
  · have long : Text.split '/' lead ≠ [[]] := fun eq => by
      have back := Text.joinWith_split '/' lead
      rw [eq] at back
      exact lead_ne back.symm
    rw [← named_split relative, components, parts, components, parts, text, plain,
      Text.split_append_sep, ofPieces_append (Text.split_ne_nil _ _) long]

/-- A name that a directory may hold. -/
def isName (name : String) : Bool :=
  name ≠ "" && name ≠ "." && name ≠ ".." && !name.toList.contains '/'

/-- A name is read as one piece that names it. -/
theorem piece_of_isName {name : String} (h : isName name = true) : '/' ∉ name.toList ∧
    isIdle name.toList = false ∧ componentOf name.toList = .name name := by
  simp only [isName, Bool.and_eq_true, decide_eq_true_eq, Bool.not_eq_true', List.contains_eq_mem,
    decide_eq_false_iff_not] at h
  obtain ⟨⟨⟨nonempty, dot⟩, dots⟩, free⟩ := h
  have nonempty : name.toList ≠ [] := fun eq => nonempty (String.toList_inj.1 eq)
  have dot : name.toList ≠ ['.'] := fun eq => dot (String.toList_inj.1 eq)
  have dots : name.toList ≠ ['.', '.'] := fun eq => dots (String.toList_inj.1 eq)
  exact ⟨free, by simp [isIdle, nonempty, dot], by simp [componentOf, dots]⟩

theorem components_name {name : String} (h : isName name = true) :
    Path.components ⟨name⟩ = [.name name] := by
  obtain ⟨free, named, eq⟩ := piece_of_isName h
  rw [components, parts, Text.split_of_not_mem free, ofPieces_name named, components_eq,
    named_cons named, eq]
  rfl

theorem isAbsolute_name {name : String} (h : isName name = true) :
    Path.isAbsolute ⟨name⟩ = false := by
  simp only [isName, Bool.and_eq_true, Bool.not_eq_true', List.contains_eq_mem,
    decide_eq_false_iff_not] at h
  simp only [isAbsolute, decide_eq_false_iff_not]
  exact fun first => h.2 (List.mem_of_mem_head? first)

theorem components_join_name {base : Path} (ne : base.text ≠ "") {name : String}
    (h : isName name = true) : (base.join ⟨name⟩).components = base.components ++ [.name name] := by
  rw [components_join ne (isAbsolute_name h), components_name h]
  rfl

theorem join_text_ne {base p : Path} (h : base.text ≠ "") (relative : p.isAbsolute = false) :
    (base.join p).text ≠ "" := by
  obtain ⟨lead, text, -⟩ := text_join h relative
  exact fun empty => by simp [empty] at text

theorem isUnder_iff {p root : Path} : p.isUnder root = true ↔ root.components <+: p.components :=
  List.isPrefixOf_iff_prefix

/-! ## Comparing -/

instance : Std.LawfulEqOrd Component where
  eq_of_compare {a b} h := by
    obtain ⟨rank, label⟩ := Ordering.then_eq_eq.1 h
    have rank : a.rank = b.rank := Std.LawfulEqOrd.eq_of_compare rank
    have label : a.label = b.label := Std.LawfulEqOrd.eq_of_compare label
    cases a <;> cases b <;> simp_all [Component.rank, Component.label]

/-- Two paths are the same to every order and search when their components agree. -/
theorem compare_eq_iff {p q : Path} : compare p q = .eq ↔ p.components = q.components := by
  show compare p.components q.components = .eq ↔ _
  exact Std.compare_eq_iff_eq

/-! ## Cutting -/

/-- Parts that are read back from their text: none of the pieces has a slash in it, and without a start
the first piece names something. -/
structure Parts.Plain (q : Parts) : Prop where
  free : ∀ piece ∈ q.body, '/' ∉ piece
  start : (q.start = none ∧ ∀ piece ∈ q.body.head?, isIdle piece = false) ∨
    q.start = some .root ∨ q.start = some .here

namespace Parts.Plain

variable {q : Parts}

theorem components_text (h : q.Plain) : Path.components ⟨q.text⟩ = q.components := by
  obtain ⟨start, body⟩ := q
  have split_body : body ≠ [] → Text.split '/' (Text.joinWith '/' body) = body := fun ne =>
    Text.split_joinWith ne h.free
  rcases h.start with ⟨rfl, first⟩ | rfl | rfl
  · cases body with
    | nil => rfl
    | cons piece body =>
      simp only [Path.components, parts, text, String.toList_ofList]
      rw [split_body (by simp), ofPieces_name (first piece (by simp))]
  · have text : (text ⟨some .root, body⟩).toList = [] ++ '/' :: Text.joinWith '/' body := by simp [text]
    rw [Path.components, parts, text, Text.split_append_sep, Text.split_nil, List.singleton_append,
      ofPieces_root (Text.split_ne_nil _ _), components_eq]
    cases body with
    | nil => rfl
    | cons piece body =>
      rw [split_body (by simp)]
      rfl
  · cases body with
    | nil => rfl
    | cons piece body =>
      have text : (text ⟨some .here, piece :: body⟩).toList =
          ['.'] ++ '/' :: Text.joinWith '/' (piece :: body) := by simp [text, Component.toText]
      rw [Path.components, parts, text, Text.split_append_sep, split_body (by simp),
        Text.split_of_not_mem (by simp), List.singleton_append, ofPieces_here]
      rfl

theorem isAbsolute_text (h : q.Plain) (start : q.start = none) : Path.isAbsolute ⟨q.text⟩ = false := by
  obtain ⟨_, body⟩ := q
  obtain rfl : _ = none := start
  cases body with
  | nil => rfl
  | cons piece body =>
    have named : isIdle piece = false := by
      rcases h.start with ⟨-, first⟩ | start | start
      · exact first piece (by simp)
      · cases start
      · cases start
    have free := h.free piece (by simp)
    cases piece with
    | nil => cases named
    | cons c cs =>
      have other : c ≠ '/' := fun eq => free (by simp [eq])
      cases body <;> simp [isAbsolute, text, Text.joinWith, other]

end Parts.Plain

theorem plain_parts (p : Path) : p.parts.Plain := by
  have free : ∀ piece ∈ Text.split '/' p.text.toList, '/' ∉ piece := fun _ => Text.not_mem_of_mem_split
  unfold parts
  cases pieces : Text.split '/' p.text.toList with
  | nil => exact absurd pieces (Text.split_ne_nil _ _)
  | cons piece rest =>
    rw [pieces] at free
    cases idle : isIdle piece with
    | false =>
      rw [ofPieces_name idle]
      exact ⟨free, .inl ⟨rfl, by simpa using idle⟩⟩
    | true =>
      have start : piece = [] ∨ piece = ['.'] := by simpa [isIdle] using idle
      have below : ∀ piece ∈ rest, '/' ∉ piece := fun piece hp => free piece (List.mem_cons_of_mem _ hp)
      rcases start with rfl | rfl
      · by_cases alone : rest = []
        · rw [show Parts.ofPieces ([] :: rest) = ⟨none, []⟩ by simp [Parts.ofPieces, alone]]
          exact ⟨by simp, .inl ⟨rfl, by simp⟩⟩
        · rw [show Parts.ofPieces ([] :: rest) = ⟨some .root, rest⟩ by simp [Parts.ofPieces, alone]]
          exact ⟨below, .inr (.inl rfl)⟩
      · exact ⟨below, .inr (.inr rfl)⟩

theorem Parts.Plain.trimEnd {q : Parts} (h : q.Plain) : q.trimEnd.Plain := by
  have part : q.trimEnd.body <+: q.body := List.rdropWhile_prefix isIdle q.body
  refine ⟨fun piece hp => h.free piece (part.subset hp), ?_⟩
  refine h.start.imp_left fun ⟨start, first⟩ => ⟨start, fun piece hp => ?_⟩
  obtain ⟨rest, eq⟩ := part
  exact first piece (by rw [← eq, List.head?_append, Option.mem_def.1 hp]; rfl)

theorem named_dropNamed (n : Nat) (body : List (List Char)) :
    named (dropNamed n body) = (named body).drop n := by
  induction body generalizing n with
  | nil => cases n <;> simp [dropNamed]
  | cons piece body ih =>
    cases n with
    | zero => rfl
    | succ n =>
      rw [dropNamed]
      cases idle : isIdle piece with
      | true => rw [if_pos rfl, ih, named_cons_idle idle]
      | false => rw [if_neg (by simp), ih, named_cons idle, List.drop_succ_cons]

theorem dropNamed_suffix (n : Nat) (body : List (List Char)) : dropNamed n body <:+ body := by
  induction body generalizing n with
  | nil => cases n <;> simp [dropNamed]
  | cons piece body ih =>
    cases n with
    | zero => exact List.suffix_refl _
    | succ n =>
      rw [dropNamed]
      split
      · exact (ih _).trans (List.suffix_cons _ _)
      · exact (ih _).trans (List.suffix_cons _ _)

/-- What is left of a path below a root are the components after those of the root. -/
theorem relativeTo?_below {p root : Path} (ne : root.text ≠ "") (below : p.isUnder root = true) :
    ∃ rest, p.relativeTo? root = some rest ∧ rest.isAbsolute = false ∧
      rest.components.filter (· ≠ .here) = p.components.drop root.components.length := by
  obtain ⟨n, length⟩ : ∃ n, root.components.length = n + 1 :=
    Nat.exists_eq_succ_of_ne_zero (by simpa [components_eq_nil_iff] using ne)
  let body := (dropNamed (n + 1 - p.parts.start.toList.length) p.parts.body).dropWhile isIdle
  have plain : Parts.Plain ⟨none, body⟩ := by
    have part : body <:+ p.parts.body := (List.dropWhile_suffix _).trans (dropNamed_suffix _ _)
    refine ⟨fun piece hp => (plain_parts p).free piece (part.subset hp), .inl ⟨rfl, fun piece hp => ?_⟩⟩
    have first := List.head?_dropWhile_not isIdle (dropNamed (n + 1 - p.parts.start.toList.length) p.parts.body)
    rwa [Option.mem_def.1 hp] at first
  have text : p.relativeTo? root = some ⟨(Parts.trimEnd ⟨none, body⟩).text⟩ := by
    rw [relativeTo?, if_pos below, length]
    rfl
  refine ⟨_, text, plain.trimEnd.isAbsolute_text rfl, ?_⟩
  have cut : named body = p.components.drop (n + 1) := by
    have start : p.parts.start.toList.length ≤ n + 1 := by
      cases p.parts.start <;> simp
    rw [named_dropWhile, named_dropNamed, components, components_eq, List.drop_append]
    simp [List.drop_eq_nil_of_le start]
  rw [plain.trimEnd.components_text, trimEnd_components, components_eq, length, ← cut]
  exact filter_named body

/-- A path is where its rest below a root leads from there. -/
theorem components_join_relativeTo {p root : Path} (h : p.isAbsolute = true ∨ p.isUnder root = true) :
    (root.join (p.relativeTo root)).components = p.components := by
  by_cases below : p.isUnder root = true
  · by_cases empty : root.text = ""
    · have rest : p.relativeTo root = ⟨p.parts.trimEnd.text⟩ := by
        simp [relativeTo, relativeTo?, below, components_eq_nil_iff.2 empty]
      have alone : root.join (p.relativeTo root) = p.relativeTo root := by
        unfold join
        simp [empty]
      rw [alone, rest, (plain_parts p).trimEnd.components_text, trimEnd_components]
      rfl
    · obtain ⟨rest, eq, relative, cut⟩ := relativeTo?_below empty below
      rw [relativeTo, eq, Option.getD_some, components_join empty relative, cut]
      exact List.prefix_iff_eq_append.1 (isUnder_iff.1 below)
  · have absolute : p.isAbsolute = true := h.resolve_right below
    have whole : p.relativeTo root = p := by simp [relativeTo, relativeTo?, below]
    rw [whole, join, if_pos absolute]

end ServiceMap.Path
