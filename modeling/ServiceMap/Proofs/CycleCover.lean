import Mathlib.Data.List.Infix
import ServiceMap.Proofs.Cycles

/-! No circular dependency goes unreported. The arcs that close the reported cycles, one for each,
are all that keep the order of the search from being one in which every call goes forward. -/

namespace ServiceMap

open scoped List
open Relation

/-- Both services can be reached from one another: they are in one strongly connected component. -/
def Mutual (edges : List Edge) (a b : String) : Prop :=
  ReflTransGen (Depends edges) a b ∧ ReflTransGen (Depends edges) b a

theorem idxOf_lt_of_pair {order : List String} {a b : String} (nodup : order.Nodup)
    (forward : [a, b] <+ order) : order.idxOf a < order.idxOf b := by
  induction order with
  | nil => simp at forward
  | cons c order ih =>
    obtain ⟨new, nodup⟩ := List.nodup_cons.1 nodup
    cases forward with
    | cons _ later =>
      have ha : a ∈ order := later.subset (by simp)
      have hb : b ∈ order := later.subset (by simp)
      rw [List.idxOf_cons_ne _ (ne_of_mem_of_not_mem ha new).symm,
        List.idxOf_cons_ne _ (ne_of_mem_of_not_mem hb new).symm]
      exact Nat.succ_lt_succ (ih nodup later)
    | cons_cons _ rest =>
      have hb : b ∈ order := List.singleton_sublist.1 rest
      rw [List.idxOf_cons_self, List.idxOf_cons_ne _ (ne_of_mem_of_not_mem hb new).symm]
      exact Nat.succ_pos _

/-- The place in the order is a rank that every arc raises. -/
theorem acyclic_of_forward {order : List String} {r : String → String → Prop}
    (nodup : order.Nodup) (forward : ∀ a b, r a b → [a, b] <+ order) : Acyclic r := by
  intro a around
  have rises : ∀ b, TransGen r a b → order.idxOf a < order.idxOf b := by
    intro b walk
    induction walk with
    | single arc => exact idxOf_lt_of_pair nodup (forward _ _ arc)
    | tail _ arc ih => exact ih.trans (idxOf_lt_of_pair nodup (forward _ _ arc))
  exact Nat.lt_irrefl _ (rises a around)

theorem eq_of_sublist_perm {order a b : List String} (nodup : order.Nodup) (ha : a <+ order)
    (hb : b <+ order) (same : a ~ b) : a = b := by
  induction order generalizing a b with
  | nil => rw [List.sublist_nil.1 ha, List.sublist_nil.1 hb]
  | cons c order ih =>
    obtain ⟨new, nodup⟩ := List.nodup_cons.1 nodup
    cases ha with
    | cons _ ha =>
      cases hb with
      | cons _ hb => exact ih nodup ha hb same
      | cons_cons _ _ => exact absurd (ha.subset (same.mem_iff.2 List.mem_cons_self)) new
    | cons_cons _ ha =>
      cases hb with
      | cons _ hb => exact absurd (hb.subset (same.mem_iff.1 List.mem_cons_self)) new
      | cons_cons _ hb => rw [ih nodup ha hb (List.perm_cons _ |>.1 same)]

namespace Loop

variable {l m : Loop} {g : Digraph} {order : List String}

theorem mem_closed_turned {s : String} : s ∈ closed l.turned ↔ s ∈ l.nodes := by
  rw [closed, List.mem_append, ← l.turned_isRotated.mem_iff]
  exact or_iff_left_of_imp List.mem_of_mem_take

/-- Two loops along one order that are reported as the same cycle are the same way. -/
theorem On.nodes_eq (hl : l.On g order) (hm : m.On g order) (nodup : order.Nodup)
    (same : closed l.turned = closed m.turned) : l.nodes = m.nodes := by
  have turned : l.turned = m.turned := by
    rw [← dropLast_closed (hl.turned_startsLeast nodup).ne_nil, same,
      dropLast_closed (hm.turned_startsLeast nodup).ne_nil]
  refine eq_of_sublist_perm nodup hl.sublist hm.sublist ?_
  exact l.turned_isRotated.perm.symm.trans (turned ▸ m.turned_isRotated.perm)

theorem arc_eq_of_nodes_eq (same : l.nodes = m.nodes) : l.arc = m.arc := by
  obtain ⟨first, rest⟩ := List.cons.inj same
  obtain ⟨-, last⟩ := List.append_inj' rest rfl
  simp [arc, first, List.singleton_inj.1 last]

/-- The arc that closes a loop is one of the calls of the reported cycle. -/
theorem arc_neighbours (l : Loop) : [l.last, l.first] <:+: closed l.turned := by
  have chain : (closed l.nodes).IsChain fun a b => [a, b] <:+: closed l.turned :=
    closed_isChain_of_isRotated l.turned_isRotated.symm (List.isChain_isInfix _)
  have split : closed l.nodes = (l.first :: l.inner) ++ [l.last, l.first] := by simp [closed, nodes]
  rw [split] at chain
  exact chain.right_of_append.rel

/-- All services of a loop are between its first and its last. -/
theorem On.reaches (h : l.On g order) {s : String} (hs : s ∈ l.nodes) :
    ReflTransGen g.Leads l.first s ∧ ReflTransGen g.Leads s l.last := by
  have walk : l.nodes.Pairwise (ReflTransGen g.Leads) :=
    List.isChain_iff_pairwise.1 (h.chain.imp fun _ _ => ReflTransGen.single)
  obtain ⟨start, rest⟩ := List.pairwise_cons.1 walk
  have finish := (List.pairwise_append.1 rest).2.2
  simp only [nodes, List.mem_cons, List.mem_append, List.not_mem_nil, or_false] at hs
  rcases hs with rfl | inside | rfl
  · exact ⟨.refl, start l.last (by simp)⟩
  · exact ⟨start s (by simp [inside]), finish s inside l.last (by simp)⟩
  · exact ⟨start l.last (by simp), .refl⟩

end Loop

theorem not_acyclic_of_closed {r : String → String → Prop} {l : List String} (ne : l ≠ [])
    (around : (closed l).IsChain r) : ¬ Acyclic r := by
  intro acyclic
  cases l with
  | nil => exact ne rfl
  | cons a l =>
    have walk : (closed (a :: l)).Pairwise (TransGen r) :=
      List.isChain_iff_pairwise.1 (around.imp fun _ _ => TransGen.single)
    exact acyclic a ((List.pairwise_cons.1 walk).1 a (by simp))

theorem Circuit.not_acyclic {edges : List Edge} {c : List String} (h : Circuit edges c) :
    ¬ Acyclic (Depends edges) := by
  obtain ⟨least, rest, rfl, -, -, -, chain⟩ := h
  exact not_acyclic_of_closed (l := least :: rest) (by simp) chain

/-- One closing call of each cycle can be cut, so that what is left of the calls is acyclic. -/
theorem exists_cut (edges : List Edge) :
    ∃ cut : List String → String × String,
      (∀ c ∈ cycles edges, [(cut c).1, (cut c).2] <:+: c) ∧
        (∀ c ∈ cycles edges, ∀ d ∈ cycles edges, cut c = cut d → c = d) ∧
          Acyclic fun a b => Depends edges a b ∧ ∀ c ∈ cycles edges, cut c ≠ (a, b) := by
  obtain ⟨order, loops, traversal, nodup, mem⟩ := cycles_traversal edges
  have closes : ∀ c : List String, ∃ l : Loop, c ∈ cycles edges → l ∈ loops ∧ closed l.turned = c := by
    intro c
    by_cases hc : c ∈ cycles edges
    · obtain ⟨l, hl⟩ := (mem c).1 hc
      exact ⟨l, fun _ => hl⟩
    · exact ⟨⟨"", [], ""⟩, fun h => absurd h hc⟩
  choose loopOf spec using closes
  refine ⟨fun c => (loopOf c).arc, fun c hc => ?_, fun c hc d hd same => ?_, ?_⟩
  · have := (loopOf c).arc_neighbours
    rwa [(spec c hc).2] at this
  · have : loopOf c = loopOf d :=
      List.inj_on_of_nodup_map traversal.arcs_nodup (spec c hc).1 (spec d hd).1 same
    rw [← (spec c hc).2, ← (spec d hd).2, this]
  · refine acyclic_of_forward nodup fun a b ⟨depends, uncut⟩ => ?_
    rcases traversal.settled (Digraph.leads_ofEdges.2 depends) with forward | ⟨l, hl, arc⟩
    · exact forward
    · -- the loop that the arc closes may be reported through another one, but that is the same way
      have hc : closed l.turned ∈ cycles edges := (mem _).2 ⟨l, hl, rfl⟩
      obtain ⟨hm, same⟩ := spec _ hc
      have ways := (traversal.loops_on _ hm).nodes_eq (traversal.loops_on l hl) nodup same
      exact absurd ((Loop.arc_eq_of_nodes_eq ways).trans arc) (uncut _ hc)

theorem cycles_eq_nil_iff (edges : List Edge) : cycles edges = [] ↔ Acyclic (Depends edges) := by
  constructor
  · intro none
    obtain ⟨cut, -, -, acyclic⟩ := exists_cut edges
    simpa [none] using acyclic
  · intro acyclic
    refine List.eq_nil_iff_forall_not_mem.2 fun c hc => ?_
    exact (circuit_of_mem_cycles hc).not_acyclic acyclic

/-- A walk from a service back to it stays within its component. -/
theorem walk_within {edges : List Edge} {a b : String} (walk : TransGen (Depends edges) a b)
    (back : ReflTransGen (Depends edges) b a) :
    TransGen (fun x y => Depends edges x y ∧ Mutual edges a x ∧ Mutual edges a y) a b := by
  induction walk with
  | single arc => exact .single ⟨arc, ⟨.refl, .refl⟩, .single arc, back⟩
  | @tail b c walk arc ih =>
    have back' : ReflTransGen (Depends edges) b a := back.head arc
    exact (ih back').tail ⟨arc, ⟨walk.to_reflTransGen, back'⟩, walk.to_reflTransGen.tail arc, back⟩

theorem exists_cycle_of_mutual {edges : List Edge} {a b : String} (ne : a ≠ b)
    (joined : Mutual edges a b) : ∃ c ∈ cycles edges, ∀ s ∈ c, Mutual edges a s := by
  obtain ⟨order, loops, traversal, nodup, mem⟩ := cycles_traversal edges
  by_contra outside
  push Not at outside
  have around : TransGen (Depends edges) a a := by
    rcases reflTransGen_iff_eq_or_transGen.1 joined.1 with eq | there
    · exact absurd eq.symm ne
    · exact there.trans_left joined.2
  refine acyclic_of_forward nodup ?_ a (walk_within around .refl)
  rintro x y ⟨depends, hx, hy⟩
  rcases traversal.settled (Digraph.leads_ofEdges.2 depends) with forward | ⟨l, hl, arc⟩
  · exact forward
  · obtain ⟨rfl, rfl⟩ := Prod.mk.inj arc
    obtain ⟨s, hs, apart⟩ := outside _ ((mem _).2 ⟨l, hl, rfl⟩)
    obtain ⟨into, out⟩ := (traversal.loops_on l hl).reaches (Loop.mem_closed_turned.1 hs)
    rw [Digraph.leads_ofEdges_eq] at into out
    exact absurd ⟨hy.1.trans into, out.trans hx.2⟩ apart

/-- Every circular dependency is met by a reported cycle: cutting one call of each, another for
each, leaves none; there is none when no cycle is reported; and there is a cycle within each component of
services that depend on one another. -/
theorem cycles_cover (edges : List Edge) :
    (∃ cut : List String → String × String,
      (∀ c ∈ cycles edges, [(cut c).1, (cut c).2] <:+: c) ∧
        (∀ c ∈ cycles edges, ∀ d ∈ cycles edges, cut c = cut d → c = d) ∧
          Acyclic fun a b => Depends edges a b ∧ ∀ c ∈ cycles edges, cut c ≠ (a, b)) ∧
      (cycles edges = [] ↔ Acyclic (Depends edges)) ∧
      ∀ a b, a ≠ b → Mutual edges a b → ∃ c ∈ cycles edges, ∀ s ∈ c, Mutual edges a s :=
  ⟨exists_cut edges, cycles_eq_nil_iff edges, fun _ _ => exists_cycle_of_mutual⟩

theorem cycles_cover_sharingCalls :
    "a" ≠ "c" ∧ Mutual sharingCalls "a" "c" ∧
      ∃ c ∈ cycles sharingCalls, ∀ s ∈ c, Mutual sharingCalls "a" s := by
  have ne : "a" ≠ "c" := by decide
  have calls : Depends sharingCalls "a" "b" ∧ Depends sharingCalls "b" "a" ∧
      Depends sharingCalls "b" "c" ∧ Depends sharingCalls "c" "b" := by
    simp [Depends, sharingCalls]
  obtain ⟨ab, ba, bc, cb⟩ := calls
  have joined : Mutual sharingCalls "a" "c" := ⟨.head ab (.single bc), .head cb (.single ba)⟩
  exact ⟨ne, joined, (cycles_cover sharingCalls).2.2 _ _ ne joined⟩

end ServiceMap
