import ServiceMap.Proofs.Drafts
import ServiceMap.Proofs.Findings
import ServiceMap.Proofs.Normalization
import ServiceMap.Proofs.Resolution
import ServiceMap.Proofs.Segments

/-! Targets without a literal segment. Extraction passes them over before anything is resolved, and only
an API made of placeholders itself could have been reached by one. -/

namespace ServiceMap

namespace Text

/-- Trimming leaves the first character that is not white space in front. -/
theorem head?_trim (s : List Char) : (trim s).head? = s.find? fun c => !isBlank c := by
  rw [List.find?_not_eq_head?_dropWhile, trim]
  change (trimEnd (trimStart s)).head? = (trimStart s).head?
  cases start : trimStart s with
  | nil => rfl
  | cons c rest =>
    have plain : isBlank c = false := by
      have stop := List.head?_dropWhile_not isBlank s
      rw [show s.dropWhile isBlank = c :: rest from start] at stop
      exact stop
    have ends : EndsPlain [c] := by simpa [EndsPlain] using plain
    rw [← List.singleton_append, trimEnd_append (by simp) ends]
    rfl

end Text

namespace Target

open Text

variable {s g : List Char}

/-- What a placeholder can start with. -/
def placeholderMarks : List Char := ['$', '#', '{', '%', ':']

/-- Once trimmed, the segment is empty or starts like a placeholder. -/
def Hollow (g : List Char) : Prop := ∀ c ∈ (trim g).head?, c ∈ placeholderMarks

instance (g : List Char) : Decidable (Hollow g) := Option.decidableForallMem (trim g).head?

theorem head_mem_of_isPlaceholder {c : Char} (h : isPlaceholder g = true) (hc : c ∈ g.head?) :
    c ∈ placeholderMarks := by
  cases g with
  | nil => simp at hc
  | cons d g =>
    obtain rfl : d = c := by simpa using hc
    simp only [isPlaceholder, List.isPrefixOf, List.head?_cons, Bool.or_eq_true, Bool.and_eq_true,
      beq_iff_eq, decide_eq_true_eq, Option.some.injEq] at h
    rcases h with (((⟨rfl, -⟩ | ⟨rfl, -⟩) | ⟨rfl, -⟩) | rfl) | rfl <;> decide

/-- A target without a literal segment has hollow ones only. -/
theorem hollow_of_not_hasLiteral (bare : hasLiteral s = false) (hg : g ∈ split '/' s) : Hollow g := by
  intro c hc
  have none : ¬ ∃ g ∈ split '/' s, trim g ≠ [] ∧ isPlaceholder (trim g) = false :=
    fun named => by simp [hasLiteral_iff.2 named] at bare
  have some : trim g ≠ [] := by
    rintro empty
    simp [empty] at hc
  refine head_mem_of_isPlaceholder ?_ hc
  by_contra literal
  exact none ⟨g, hg, some, by simpa using literal⟩

theorem Hollow.of_frontOf {p q : List Char} (hollow : Hollow q) (front : FrontOf p q) : Hollow p := by
  obtain ⟨blanks, blank, before⟩ := front
  intro c hc
  refine hollow c ?_
  rw [head?_trim] at hc ⊢
  -- the blanks in front do not count, and the front of a text holds its first character
  have skipped : blanks.find? (fun c => !isBlank c) = none :=
    List.find?_eq_none.2 fun d hd => by simp [blank d hd]
  have first : (blanks ++ p).find? (fun c => !isBlank c) = some c := by
    rw [List.find?_append, skipped]
    exact hc
  exact before.find?_eq_some first

/-- Cutting a target down to its path makes no segment literal. -/
theorem hollow_of_mem_normalize (bare : hasLiteral s = false) (hg : g ∈ split '/' (normalize s)) :
    Hollow g := by
  obtain ⟨q, hq, front⟩ := normalize_cutFrom s g hg
  exact (hollow_of_not_hasLiteral bare hq).of_frontOf front

/-- What a target without a literal segment reaches has hollow segments only. -/
theorem hollow_of_reaches {target api : String} (bare : hasLiteral target.toList = false)
    (reaches : Reaches target api) (hg : g ∈ pathSegments api) : Hollow g := by
  have there : g ∈ segments (normalize target.toList) := reaches.2.subset hg
  exact hollow_of_mem_normalize bare (List.mem_filter.1 there).1

end Target

open Target

theorem CallSite.hasLiteral_of_mem_extract {l : Language} {source : String} {file : Path} {c : CallSite}
    (hc : c ∈ extract l source file) : hasLiteral c.target.toList = true := by
  obtain ⟨f, hf, rfl⟩ := List.mem_map.1 hc
  obtain ⟨line, number, -, -, taken⟩ := Finding.mem_ofText.1 hf
  rw [String.toList_ofList]
  exact (Finding.marked_of_mem_taken taken).literal

namespace Registry

variable {r : Registry} {target : String} {x : Resolution}

theorem hollow_of_resolve? (bare : hasLiteral target.toList = false) (found : r.resolve? target = some x) :
    ∀ g ∈ pathSegments x.api, Hollow g := by
  obtain ⟨_, _, _, _, _, _, -, -, rfl, first⟩ := resolve?_eq_some_iff.1 found
  exact fun g hg => hollow_of_reaches bare first.reaches hg

/-- No API is made of hollow segments. One without segments is reached by nothing, so it does not count. -/
def SolidNames (r : Registry) : Prop :=
  ∀ s ∈ r.services, ∀ api ∈ s.provides, (∀ g ∈ pathSegments api, Hollow g) → pathSegments api = []

theorem SolidNames.resolve?_eq_none (solid : r.SolidNames) (bare : hasLiteral target.toList = false) :
    r.resolve? target = none := by
  rw [resolve?_eq_none_iff]
  intro s hs api provided reaches
  exact reaches.1 (solid s hs api provided fun g hg => hollow_of_reaches bare reaches hg)

end Registry

/-- Whether the target of the call has a literal segment. -/
def Outgoing.isNamed (o : Outgoing) : Bool := hasLiteral o.call.target.toList

/-- Only the calls with a literal segment. -/
def Draft.named (d : Draft) : Draft := { d with calls := d.calls.filter Outgoing.isNamed }

variable {r : Registry}

theorem Outgoing.link?_resolved_eq_none (solid : r.SolidNames) {o : Outgoing} (bare : o.isNamed = false) :
    (o.resolved r).link? = none := by
  have none : (o.resolved r).call.resolution = none := solid.resolve?_eq_none bare
  rw [link?, none]

/-- Links come from the calls with a literal segment. -/
theorem Draft.links_named (solid : r.SolidNames) (d : Draft) :
    (d.named.resolved r).filterMap Outgoing.link? = (d.resolved r).filterMap Outgoing.link? := by
  simp only [resolved, named, List.filterMap_map, List.filterMap_filter]
  refine List.filterMap_congr fun o _ => ?_
  split
  · rfl
  · next bare => exact (o.link?_resolved_eq_none solid (by simpa using bare)).symm

/-- Resolving a call does not change its target. -/
theorem Draft.resolved_named (r : Registry) (d : Draft) :
    d.named.resolved r = (d.resolved r).filter Outgoing.isNamed := by
  rw [resolved, resolved, List.filter_map]
  rfl

/-- The targets that extraction passes over reach nothing but APIs made of placeholders. Where none is
provided the edges are the same, whether such calls are left out before they are resolved, after that or
not at all. -/
theorem Registry.placeholders_lose_nothing (r : Registry) :
    (∀ l source file, ∀ c ∈ CallSite.extract l source file, hasLiteral c.target.toList = true) ∧
      (∀ target x, hasLiteral target.toList = false → r.resolve? target = some x →
        ∀ g ∈ pathSegments x.api, Hollow g) ∧
      (r.SolidNames → ∀ d : Draft, (d.named.graph r).edges = (d.graph r).edges ∧
        Edge.ofLinks (((d.resolved r).filter Outgoing.isNamed).filterMap Outgoing.link?) =
          (d.graph r).edges) := by
  refine ⟨fun l source file c hc => CallSite.hasLiteral_of_mem_extract hc,
    fun target x bare found => hollow_of_resolve? bare found, fun solid d => ?_⟩
  have links := d.links_named solid
  rw [Draft.graph_edges, Draft.graph_edges, ← Draft.resolved_named]
  refine ⟨congrArg Edge.ofLinks links, ?_⟩
  exact congrArg Edge.ofLinks links

def billing : Registry :=
  ⟨⟨"/"⟩, [⟨"billing", .go, ⟨"/b"⟩, ⟨"b"⟩, ⟨none, none, false⟩, ["/invoices/:id"], [], []⟩]⟩

/-- A registry with an API that is all placeholder. -/
def mirror : Registry :=
  ⟨⟨"/"⟩, [⟨"mirror", .ruby, ⟨"/m"⟩, ⟨"m"⟩, ⟨none, none, false⟩, [":id"], [], []⟩]⟩

/-- One call with a literal segment, and one without. -/
def invoiceCalls : Draft where
  calls := [⟨"shop", ⟨⟨"a.go"⟩, 1, "/invoices/:id", "get", none⟩⟩,
    ⟨"shop", ⟨⟨"a.go"⟩, 2, "/:id/%s/", "get", none⟩⟩]

/-- The call without a literal segment reaches what is all placeholder, and nothing else. -/
theorem placeholders_lose_nothing_invoices :
    billing.SolidNames ∧ hasLiteral "/:id/%s/".toList = false ∧
      mirror.resolve? "/:id/%s/" = some ⟨"mirror", ":id"⟩ ∧ (∀ g ∈ pathSegments ":id", Hollow g) ∧
      (invoiceCalls.named.graph billing).edges = (invoiceCalls.graph billing).edges ∧
      (invoiceCalls.graph billing).edges.map Edge.apis = [.ofList ["/invoices/:id"]] := by
  have solid : billing.SolidNames := by
    unfold Registry.SolidNames
    decide
  have bare : hasLiteral "/:id/%s/".toList = false := by decide
  have reached : mirror.resolve? "/:id/%s/" = some ⟨"mirror", ":id"⟩ := by cbv
  have hollow : ∀ g ∈ pathSegments ":id", Hollow g :=
    mirror.placeholders_lose_nothing.2.1 _ ⟨"mirror", ":id"⟩ bare reached
  obtain ⟨same, -⟩ := billing.placeholders_lose_nothing.2.2 solid invoiceCalls
  have kept : (invoiceCalls.graph billing).edges.map Edge.apis = [.ofList ["/invoices/:id"]] := by cbv
  exact ⟨solid, bare, reached, hollow, same, kept⟩

end ServiceMap
