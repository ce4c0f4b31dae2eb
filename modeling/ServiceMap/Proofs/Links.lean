import ServiceMap.Graph.Edge
import ServiceMap.Proofs.Sorting
import ServiceMap.Proofs.Tables

/-! The edges that calls make: one for each pair of services with a call between them, and in it
the APIs of those calls and no others. The links count as a set. -/

namespace ServiceMap

theorem NameSet.ext {s t : NameSet} (same : ∀ a, a ∈ s.toList ↔ a ∈ t.toList) : s = t := by
  obtain ⟨l, hl⟩ := s
  obtain ⟨m, hm⟩ := t
  have : l = m := eq_of_ascending hl hm same
  subst this
  rfl

namespace Edge

/-- The calls from one service to another, as one edge. -/
def between (links : List Link) (consumer provider : String) : Edge :=
  ⟨consumer, provider, .ofList ((links.filter fun l =>
    l.consumer = consumer && l.provider = provider).map Link.api)⟩

/-- One edge for each pair of services with a call between them, in ascending order. -/
def ofLinks (links : List Link) : List Edge :=
  firsts (fun a b => pairOrder a b = .eq)
    (sortBy pairOrder (links.map fun l => between links l.consumer l.provider))

variable {links more : List Link}

theorem mem_between {c p a : String} :
    a ∈ (between links c p).apis.toList ↔ ⟨c, p, a⟩ ∈ links := by
  simp only [between, NameSet.mem_toList_ofList, List.mem_map, List.mem_filter, Bool.and_eq_true,
    decide_eq_true_eq]
  constructor
  · rintro ⟨l, ⟨hl, rfl, rfl⟩, rfl⟩
    exact hl
  · intro h
    exact ⟨_, ⟨h, rfl, rfl⟩, rfl⟩

theorem between_congr (same : ∀ l, l ∈ links ↔ l ∈ more) (c p : String) :
    between links c p = between more c p := by
  have apis : (between links c p).apis = (between more c p).apis :=
    NameSet.ext fun a => by rw [mem_between, mem_between, same]
  exact congrArg (Edge.mk c p) apis

theorem mem_ofLinks {e : Edge} :
    e ∈ ofLinks links ↔ ∃ l ∈ links, e = between links l.consumer l.provider := by
  have made : ∀ {e}, e ∈ ofLinks links → ∃ l ∈ links, e = between links l.consumer l.provider := by
    intro e he
    obtain ⟨l, hl, rfl⟩ := List.mem_map.1 (mem_sortBy.1 (mem_of_mem_firsts he))
    exact ⟨l, hl, rfl⟩
  constructor
  · exact made
  · rintro ⟨l, hl, rfl⟩
    have sorted : between links l.consumer l.provider ∈
        sortBy pairOrder (links.map fun l => between links l.consumer l.provider) :=
      mem_sortBy.2 (List.mem_map_of_mem hl)
    obtain ⟨k, hk, like⟩ : ∃ k ∈ ofLinks links, k = between links l.consumer l.provider ∨
        decide (pairOrder k (between links l.consumer l.provider) = .eq) = true :=
      exists_mem_firsts sorted
    rcases like with rfl | same
    · exact hk
    · -- an edge between the same two services is made of the same links
      obtain ⟨m, -, rfl⟩ := made hk
      obtain ⟨consumer, provider⟩ := pairOrder_eq.1 (of_decide_eq_true same)
      simp only [between] at consumer provider
      rwa [consumer, provider] at hk

theorem ofLinks_pairwise (links : List Link) :
    (ofLinks links).Pairwise fun e f => pairOrder e f = .lt :=
  firsts_pairwise (sortBy_pairwise pairOrder _)

/-- An API is in an edge exactly when a link names the two services and the API. -/
theorem mem_apis_ofLinks {c p a : String} :
    (∃ e ∈ ofLinks links, e.consumer = c ∧ e.provider = p ∧ a ∈ e.apis.toList) ↔
      ⟨c, p, a⟩ ∈ links := by
  constructor
  · rintro ⟨e, he, rfl, rfl, ha⟩
    obtain ⟨l, -, rfl⟩ := mem_ofLinks.1 he
    exact mem_between.1 ha
  · intro h
    exact ⟨_, mem_ofLinks.2 ⟨_, h, rfl⟩, rfl, rfl, mem_between.2 h⟩

/-- Every edge is there for a link. -/
theorem exists_link {e : Edge} (h : e ∈ ofLinks links) :
    ∃ a, a ∈ e.apis.toList ∧ ⟨e.consumer, e.provider, a⟩ ∈ links := by
  obtain ⟨l, hl, rfl⟩ := mem_ofLinks.1 h
  exact ⟨l.api, mem_between.2 hl, hl⟩

/-- Neither the order of the links nor how often one is given matters. -/
theorem ofLinks_congr (same : ∀ l, l ∈ links ↔ l ∈ more) : ofLinks links = ofLinks more := by
  refine eq_of_ascending (ofLinks_pairwise links) (ofLinks_pairwise more) fun e => ?_
  simp only [mem_ofLinks, same, between_congr same]

end Edge

namespace EdgeTable

instance : Std.LawfulEqCmp
    (compareLex (compareOn Prod.fst) (compareOn Prod.snd) : String × String → String × String → Ordering) where
  eq_of_compare {a b} level := by
    obtain ⟨first, second⟩ := compareLex_eq_eq.1 level
    exact Prod.ext (Std.LawfulEqOrd.eq_of_compare first) (Std.LawfulEqOrd.eq_of_compare second)

variable {t : EdgeTable} {links : List Link}

theorem mem_edges {e : Edge} : e ∈ t.edges ↔ t[(e.consumer, e.provider)]? = some e.apis := by
  rw [← Std.TreeMap.mem_toList_iff_getElem?_eq_some, edges, List.mem_map]
  constructor
  · rintro ⟨⟨⟨c, p⟩, apis⟩, mem, rfl⟩
    exact mem
  · exact fun mem => ⟨_, mem, rfl⟩

theorem edges_pairwise (t : EdgeTable) :
    t.edges.Pairwise fun e f => Edge.pairOrder e f = .lt := by
  rw [edges, List.pairwise_map]
  exact Std.TreeMap.ordered_keys_toList (t := t)

theorem mem_foldl_insert {a : String} (s : NameSet) (links : List Link) :
    a ∈ (links.foldl (fun s l => s.insert l.api) s).toList ↔
      a ∈ s.toList ∨ ∃ l ∈ links, l.api = a := by
  induction links generalizing s with
  | nil => simp
  | cons l links ih =>
    rw [List.foldl_cons, ih, NameSet.mem_toList_insert, List.exists_mem_cons_iff, or_assoc, eq_comm]
    exact or_left_comm

def pairOf (l : Link) : String × String := (l.consumer, l.provider)

theorem mem_ofKey_pairOf {l : Link} {c p : String} :
    l ∈ ofKey pairOf (c, p) links ↔ l ∈ links ∧ l.consumer = c ∧ l.provider = p := by
  simp [ofKey, pairOf]

/-- The links of a pair, taken in one by one, come to the APIs of its edge. -/
theorem foldl_insert_ofKey (links : List Link) (c p : String) :
    (ofKey pairOf (c, p) links).foldl (fun s l => s.insert l.api) .empty =
      (Edge.between links c p).apis := by
  refine NameSet.ext fun a => ?_
  rw [mem_foldl_insert, Edge.mem_between]
  constructor
  · rintro (none | ⟨l, hl, rfl⟩)
    · cases none
    · obtain ⟨hl, consumer, provider⟩ := mem_ofKey_pairOf.1 hl
      rwa [← consumer, ← provider]
  · exact fun h => .inr ⟨_, mem_ofKey_pairOf.2 ⟨h, rfl, rfl⟩, rfl⟩

/-- Links that are added one by one come to the edges of all of them. -/
theorem edges_foldl (links : List Link) : (links.foldl add ∅).edges = Edge.ofLinks links := by
  refine eq_of_ascending (edges_pairwise _) (Edge.ofLinks_pairwise links) fun e => ?_
  let own := ofKey pairOf (e.consumer, e.provider) links
  have stands : (links.foldl add ∅)[(e.consumer, e.provider)]? =
      if own = [] then none else some (own.foldl (fun s l => s.insert l.api) .empty) :=
    getElem?_foldl_changeAt pairOf (fun _ => NameSet.empty) (fun s l => NameSet.insert s l.api) links _
  rw [mem_edges, Edge.mem_ofLinks, stands, foldl_insert_ofKey]
  constructor
  · intro found
    obtain ⟨some, apis⟩ := Option.ite_none_left_eq_some.1 found
    obtain ⟨l, hl⟩ := List.exists_mem_of_ne_nil _ some
    obtain ⟨hl, consumer, provider⟩ := mem_ofKey_pairOf.1 hl
    refine ⟨l, hl, ?_⟩
    rw [consumer, provider]
    exact congrArg (Edge.mk _ _) (Option.some.inj apis).symm
  · rintro ⟨l, hl, made⟩
    have own_l : l ∈ own := mem_ofKey_pairOf.2 ⟨hl, by rw [made]; exact ⟨rfl, rfl⟩⟩
    rw [if_neg (List.ne_nil_of_mem own_l)]
    have pair : e = Edge.between links e.consumer e.provider := by
      conv => lhs; rw [made]
      rw [made]
      rfl
    exact congrArg some (congrArg Edge.apis pair).symm

end EdgeTable
end ServiceMap
