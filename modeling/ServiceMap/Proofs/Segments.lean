import Mathlib
import ServiceMap.Target

/-! The pieces of a target between slashes. Cutting a target down to its path leaves the fronts of some of
its pieces, and a path without an empty piece in it is no more than its segments with slashes between
them. -/

namespace ServiceMap

namespace Text

variable {sep : Char} {s t u : List Char} {ps qs : List (List Char)}

theorem joinWith_append (hp : ps ≠ []) (hq : qs ≠ []) :
    joinWith sep (ps ++ qs) = joinWith sep ps ++ sep :: joinWith sep qs := by
  induction ps with
  | nil => exact absurd rfl hp
  | cons p ps ih =>
    cases ps with
    | nil =>
      obtain ⟨q, qs, rfl⟩ := List.exists_cons_of_ne_nil hq
      rfl
    | cons p' ps =>
      change p ++ sep :: joinWith sep (p' :: ps ++ qs) = (p ++ sep :: joinWith sep (p' :: ps)) ++ _
      rw [ih (by simp), List.append_assoc, List.cons_append]

/-- Each piece counts with one separator; there is one less of them. -/
theorem length_joinWith (ne : ps ≠ []) :
    (joinWith sep ps).length + 1 = (ps.map fun p => p.length + 1).sum := by
  induction ps with
  | nil => exact absurd rfl ne
  | cons p ps ih =>
    cases ps with
    | nil => simp [joinWith]
    | cons p' ps =>
      have rest := ih (by simp)
      rw [List.map_cons, List.sum_cons, ← rest]
      simp only [joinWith, List.length_append, List.length_cons]
      omega

/-- A run of pieces is shorter than all of them. -/
theorem length_joinWith_lt (run : ps <:+: qs) (ne : ps ≠ []) (differ : ps ≠ qs) :
    (joinWith sep ps).length < (joinWith sep qs).length := by
  obtain ⟨before, after, rfl⟩ := run
  have part : (joinWith sep ps).length + 1 = (ps.map fun p => p.length + 1).sum := length_joinWith ne
  have whole : (joinWith sep (before ++ ps ++ after)).length + 1 =
      ((before ++ ps ++ after).map fun p => p.length + 1).sum := length_joinWith (by simp [ne])
  rw [List.map_append, List.map_append, List.sum_append, List.sum_append, ← part] at whole
  have more : 0 < (before.map fun p => p.length + 1).sum + (after.map fun p => p.length + 1).sum := by
    cases before with
    | cons p before => simp only [List.map_cons, List.sum_cons]; omega
    | nil =>
      cases after with
      | cons p after => simp only [List.map_cons, List.sum_cons]; omega
      | nil => simp at differ
  omega

/-- The last piece of a text and the first one of what follows are one piece. -/
theorem split_append (sep : Char) (s t : List Char) : ∃ ps p q qs, split sep s = ps ++ [p] ∧
    split sep t = q :: qs ∧ split sep (s ++ t) = ps ++ (p ++ q) :: qs := by
  -- from the front: a character starts a piece of its own or belongs to the first of the rest
  induction s with
  | nil =>
    obtain ⟨q, qs, eq⟩ := List.exists_cons_of_ne_nil (split_ne_nil sep t)
    exact ⟨[], [], q, qs, rfl, eq, by simpa using eq⟩
  | cons c s ih =>
    obtain ⟨ps, p, q, qs, hs, ht, all⟩ := ih
    rw [List.cons_append, split_cons, split_cons, hs, all]
    split
    · exact ⟨[] :: ps, p, q, qs, rfl, ht, rfl⟩
    · cases ps with
      | nil => exact ⟨[], c :: p, q, qs, rfl, ht, rfl⟩
      | cons p' ps => exact ⟨(c :: p') :: ps, p, q, qs, rfl, ht, rfl⟩

/-- An empty piece stands at an end of the text or between two separators. -/
theorem of_nil_mem_split (h : [] ∈ split sep s) :
    s = [] ∨ s.head? = some sep ∨ s.getLast? = some sep ∨ [sep, sep] <:+: s := by
  obtain ⟨before, after, pieces⟩ := List.append_of_mem h
  have text : joinWith sep (before ++ [] :: after) = s := by rw [← pieces, joinWith_split]
  have behind : after ≠ [] → joinWith sep ([] :: after) = sep :: joinWith sep after :=
    @joinWith_append sep [[]] after (by simp)
  by_cases first : before = []
  · by_cases last : after = []
    · left
      rw [← text, first, last]
      rfl
    · right; left
      rw [← text, first, List.nil_append, behind last]
      rfl
  · by_cases last : after = []
    · right; right; left
      rw [← text, last, joinWith_append first (by simp)]
      simp [joinWith]
    · right; right; right
      refine ⟨joinWith sep before, joinWith sep after, ?_⟩
      rw [← text, joinWith_append first (by simp), behind last, List.append_assoc]
      rfl

theorem head?_dropWhile_ne (c : Char) (s : List Char) : (s.dropWhile (· = c)).head? ≠ some c := by
  intro first
  have stop := List.head?_dropWhile_not (fun x => decide (x = c)) s
  rw [first] at stop
  simp at stop

theorem prefix_strip (c : Char) (s : List Char) : strip c s <+: s.dropWhile (· = c) :=
  List.rdropWhile_prefix (fun x => decide (x = c)) _

theorem head?_strip (c : Char) (s : List Char) : (strip c s).head? ≠ some c := by
  intro first
  obtain ⟨rest, eq⟩ := prefix_strip c s
  have start : (s.dropWhile (· = c)).head? = some c := by rw [← eq, List.head?_append, first]; rfl
  exact head?_dropWhile_ne c s start

theorem getLast?_strip (c : Char) (s : List Char) : (strip c s).getLast? ≠ some c := by
  rw [strip, List.getLast?_reverse]
  exact head?_dropWhile_ne c _

/-- `p` is the front of `q`, blanks at the start of `q` aside. -/
def FrontOf (p q : List Char) : Prop := ∃ blanks, (∀ c ∈ blanks, isBlank c = true) ∧ blanks ++ p <+: q

theorem FrontOf.of_isPrefix {p q : List Char} (h : p <+: q) : FrontOf p q := ⟨[], by simp, h⟩

theorem FrontOf.trans {p q r : List Char} (hp : FrontOf p q) (hq : FrontOf q r) : FrontOf p r := by
  obtain ⟨inner, innerBlank, front⟩ := hp
  obtain ⟨outer, outerBlank, behind⟩ := hq
  refine ⟨outer ++ inner, List.forall_mem_append.2 ⟨outerBlank, innerBlank⟩, ?_⟩
  rw [List.append_assoc]
  exact ((List.prefix_append_right_inj outer).2 front).trans behind

/-- Each piece of `s` is the front of a piece of `t`. -/
def CutFrom (sep : Char) (s t : List Char) : Prop := ∀ p ∈ split sep s, ∃ q ∈ split sep t, FrontOf p q

namespace CutFrom

theorem trans (hs : CutFrom sep s t) (ht : CutFrom sep t u) : CutFrom sep s u := by
  intro p hp
  obtain ⟨q, hq, front⟩ := hs p hp
  obtain ⟨r, hr, behind⟩ := ht q hq
  exact ⟨r, hr, front.trans behind⟩

/-- An empty piece is the front of any. -/
theorem of_nil (t : List Char) : ∃ q ∈ split sep t, FrontOf [] q := by
  obtain ⟨q, qs, pieces⟩ := List.exists_cons_of_ne_nil (split_ne_nil sep t)
  exact ⟨q, by simp [pieces], .of_isPrefix List.nil_prefix⟩

theorem of_subset (h : ∀ p ∈ split sep s, p = [] ∨ p ∈ split sep t) : CutFrom sep s t := by
  intro p hp
  rcases h p hp with rfl | there
  · exact of_nil t
  · exact ⟨p, there, .of_isPrefix (List.prefix_refl p)⟩

theorem refl (sep : Char) (s : List Char) : CutFrom sep s s := of_subset fun _ hp => .inr hp

theorem of_isPrefix (h : s <+: t) : CutFrom sep s t := by
  obtain ⟨rest, rfl⟩ := h
  obtain ⟨ps, p, q, qs, front, -, all⟩ := split_append sep s rest
  intro piece hp
  rw [front] at hp
  rcases List.mem_append.1 hp with before | last
  · exact ⟨piece, by simp [all, before], .of_isPrefix (List.prefix_refl _)⟩
  · obtain rfl := List.mem_singleton.1 last
    exact ⟨piece ++ q, by simp [all], .of_isPrefix (List.prefix_append _ _)⟩

/-- What starts at a separator has the same pieces as before. -/
theorem of_suffix (h : s <:+ t) (start : ∀ c ∈ s.head?, c = sep) : CutFrom sep s t := by
  obtain ⟨before, rfl⟩ := h
  refine of_subset fun p hp => ?_
  cases s with
  | nil => exact .inl (List.mem_singleton.1 hp)
  | cons c rest =>
    obtain rfl : c = sep := start c rfl
    rw [split_cons, if_pos rfl] at hp
    rw [split_append_sep]
    exact (List.mem_cons.1 hp).imp_right fun there => List.mem_append_right _ there

theorem dropWhile (sep : Char) (s : List Char) : CutFrom sep (s.dropWhile (· = sep)) s := by
  induction s with
  | nil => exact refl sep []
  | cons c s ih =>
    by_cases same : c = sep
    · have one : CutFrom sep s (c :: s) := of_subset fun p hp => .inr (by simp [split_cons, same, hp])
      rw [List.dropWhile_cons_of_pos (by simpa using same)]
      exact ih.trans one
    · rw [List.dropWhile_cons_of_neg (by simpa using same)]
      exact refl sep _

theorem strip (sep : Char) (s : List Char) : CutFrom sep (strip sep s) s :=
  (of_isPrefix (prefix_strip sep s)).trans (dropWhile sep s)

/-- The blanks at the start belong to the first piece. -/
theorem trimStart (h : isBlank sep = false) (s : List Char) : CutFrom sep (trimStart s) s := by
  have blank : ∀ c ∈ s.takeWhile isBlank, isBlank c = true := fun c hc => List.mem_takeWhile_imp hc
  have free : sep ∉ s.takeWhile isBlank := fun mem => by simp [blank sep mem] at h
  obtain ⟨ps, b, q, qs, front, rest, all⟩ :=
    split_append sep (s.takeWhile isBlank) (s.dropWhile isBlank)
  rw [split_of_not_mem free] at front
  obtain ⟨rfl, rfl⟩ : ps = [] ∧ s.takeWhile isBlank = b := by
    cases ps with
    | nil => simpa using front
    | cons p ps => simp at front
  rw [List.takeWhile_append_dropWhile] at all
  intro p hp
  rw [Text.trimStart, rest] at hp
  rcases List.mem_cons.1 hp with rfl | hp
  · exact ⟨_, by simp [all], _, blank, List.prefix_refl _⟩
  · exact ⟨p, by simp [all, hp], .of_isPrefix (List.prefix_refl p)⟩

theorem trim (h : isBlank sep = false) (s : List Char) : CutFrom sep (trim s) s := by
  have ends : Text.trim s <+: Text.trimStart s := List.rdropWhile_prefix isBlank _
  exact (of_isPrefix ends).trans (trimStart h s)

end CutFrom

end Text

namespace Target

open Text

/-- The segments of the path of a name. -/
def pathSegments (name : String) : List (List Char) := segments (normalize name.toList)

theorem after?_suffix {mark s t : List Char} (h : after? mark s = some t) : t <:+ s := by
  induction s with
  | nil =>
    obtain ⟨-, rfl⟩ : mark = [] ∧ [] = t := by simpa [after?] using h
    exact List.suffix_refl _
  | cons c s ih =>
    rw [after?] at h
    split at h
    · cases h
      exact List.drop_suffix _ _
    · exact (ih h).trans (List.suffix_cons c s)

/-- The path behind an origin starts at a slash. -/
theorem dropOrigin_cutFrom (s : List Char) : CutFrom '/' (dropOrigin s) s := by
  rw [dropOrigin]
  split
  · next rest found =>
    refine .of_suffix ((List.dropWhile_suffix _).trans (after?_suffix found)) fun c hc => ?_
    have stop := List.head?_dropWhile_not (fun c => decide (c ≠ '/')) rest
    rw [hc] at stop
    simpa using stop
  · exact .refl '/' s

theorem prefix_dropFragment (s : List Char) : dropFragment s <+: s := by
  induction s with
  | nil => exact List.prefix_refl _
  | cons c s ih =>
    rw [dropFragment]
    split
    · exact List.nil_prefix
    · exact (List.prefix_cons_inj c).2 ih

/-- What is left of a target are the fronts of some of its pieces. -/
theorem normalize_cutFrom (s : List Char) : CutFrom '/' (normalize s) s := by
  have path : CutFrom '/' (dropOrigin (trim s)) s :=
    (dropOrigin_cutFrom _).trans (.trim (by decide) s)
  have noQuery : CutFrom '/' (dropQuery (dropOrigin (trim s))) s :=
    (CutFrom.of_isPrefix (List.takeWhile_prefix _)).trans path
  have noFragment : CutFrom '/' (dropFragment (dropQuery (dropOrigin (trim s)))) s :=
    (CutFrom.of_isPrefix (prefix_dropFragment _)).trans noQuery
  exact (CutFrom.strip '/' _).trans noFragment

/-- A path in which no slash follows another is its segments with slashes between them. -/
theorem joinWith_segments {s : List Char} (single : ¬ ['/', '/'] <:+: normalize s) :
    joinWith '/' (segments (normalize s)) = normalize s := by
  by_cases empty : normalize s = []
  · rw [empty]
    rfl
  · have full : [] ∉ split '/' (normalize s) := by
      intro mem
      rcases of_nil_mem_split mem with none | first | last | doubled
      · exact empty none
      · exact head?_strip '/' _ first
      · exact getLast?_strip '/' _ last
      · exact single doubled
    have every : segments (normalize s) = split '/' (normalize s) :=
      List.filter_eq_self.2 fun p hp => decide_eq_true fun none => full (none ▸ hp)
    rw [every, joinWith_split]

end Target
end ServiceMap
