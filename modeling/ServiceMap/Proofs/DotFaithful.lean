import ServiceMap.Proofs.Diagrams

/-! The DOT diagram is faithful: what two texts differ in, the services or the edges differ in, and
the other way round. The text can be read back, so it determines what it shows; and what it shows,
the services of each language and the strokes, is all that its lines are made of. -/

namespace ServiceMap

open scoped List

variable {r r' : Registry} {edges edges' : List Edge}

/-- The groups do not depend on the order of the services. -/
theorem Registry.groups_congr
    (perm : (r.services.map fun s => (s.language, s.name)) ~
      r'.services.map fun s => (s.language, s.name)) : r.groups = r'.groups := by
  have names : ∀ (r : Registry) (l : Language),
      (r.services.filter fun s => s.language = l).map Service.name =
        ((r.services.map fun s => (s.language, s.name)).filter fun p => p.1 = l).map Prod.snd := by
    intro r l
    rw [List.filter_map, List.map_map]
    rfl
  have members : ∀ l : Language,
      sortBy compare ((r.services.filter fun s => s.language = l).map Service.name) =
        sortBy compare ((r'.services.filter fun s => s.language = l).map Service.name) := by
    intro l
    rw [names, names]
    exact sortBy_congr_of_perm ((perm.filter _).map _)
      (List.pairwise_of_forall fun _ _ => Std.LawfulEqCmp.eq_of_compare)
  simp only [groups, members]

/-- Services are the same by language just if the groups are. -/
theorem Registry.groups_eq_iff : r.groups = r'.groups ↔
    (r.services.map fun s => (s.language, s.name)) ~
      r'.services.map fun s => (s.language, s.name) := by
  refine ⟨fun same => ?_, groups_congr⟩
  exact r.groups_perm.symm.trans (same ▸ r'.groups_perm)

namespace Dot

/-- The line of an edge, by what it shows. -/
def strokeLine (s : Stroke) : String :=
  let style := if s.declared then "" else ", style=dashed, color=red"
  let label := s!"{s.count} APIs"
  s!"    {quoted s.consumer} -> {quoted s.provider} [label=\"{label}\"{style}];"

theorem edgeLine_eq (r : Registry) (e : Edge) : edgeLine r e = strokeLine (.ofEdge r e) := rfl

theorem rendering_congr (groups : r.groups = r'.groups)
    (strokes : (Drawing.ofEdges r edges).strokes = (Drawing.ofEdges r' edges').strokes) :
    rendering edges r = rendering edges' r' := by
  have lines : ∀ (r : Registry) (edges : List Edge), (edges.filter (!·.isLoop)).map (edgeLine r) =
      (Drawing.ofEdges r edges).strokes.map strokeLine := by
    intro r edges
    rw [Drawing.ofEdges, List.map_map]
    exact List.map_congr_left fun e _ => edgeLine_eq r e
  rw [rendering, rendering, groups, lines, lines, strokes]

/-- A text with a backslash in front of each `c`. -/
def protect (c : Char) (s : List Char) : List Char := s.flatMap fun d => if d = c then ['\\', d] else [d]

/-- A name is escaped as in two passes. The one for backslashes comes first, since the other one
makes backslashes. -/
theorem escaped_eq_protect (name : List Char) : escaped name = protect '"' (protect '\\' name) := by
  have pass : ∀ d e s, protect d (e :: s) = (if e = d then ['\\', e] else [e]) ++ protect d s :=
    fun _ _ _ => List.flatMap_cons
  induction name with
  | nil => rfl
  | cons c name ih =>
    by_cases slash : c = '\\'
    · rw [escaped_cons_special (.inl slash), ih]
      simp [pass, slash]
    by_cases quote : c = '"'
    · rw [escaped_cons_special (.inr quote), ih]
      simp [pass, quote]
    · rw [escaped_cons_plain (not_or.2 ⟨slash, quote⟩), ih]
      simp [pass, slash, quote]

/-- In the other order a quote in a name would end it. -/
example : readName? (protect '\\' (protect '"' ['"']) ++ ['"']) = some (['\\'], ['"']) := by decide

end Dot
end ServiceMap
