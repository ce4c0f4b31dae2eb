import ServiceMap.Proofs.CycleCover
import ServiceMap.Proofs.SearchOrder

/-! Which cycles of calls are reported. The search meets every service on the first of all paths that
lead to it, so a cycle is met when it lies along such a path; others are not, but share a call with one
that is. -/

namespace ServiceMap

open scoped List

/-- Two or more services, each of which calls the next one, and the last the first. -/
structure Elementary (edges : List Edge) (l : List String) : Prop where
  long : 2 ≤ l.length
  nodup : l.Nodup
  calls : (closed l).IsChain (Depends edges)

variable {edges : List Edge} {l m t p : List String} {a : String}

theorem mem_cycles_iff_mem_found (ne : t ≠ []) :
    closed t ∈ cycles edges ↔ t ∈ (Search.whole (.ofEdges edges)).found := by
  simp only [cycles, List.mem_map, mem_ascending]
  constructor
  · rintro ⟨f, hf, same⟩
    have other : f ≠ [] := by
      rintro rfl
      have : closed t = [] := same.symm
      exact ne (by simpa [closed] using this)
    have := congrArg List.dropLast same
    rw [dropLast_closed other, dropLast_closed ne] at this
    exact this ▸ hf
  · exact fun mem => ⟨t, mem, rfl⟩

/-- A list without repetition, cut before one of its members. -/
theorem dropWhile_ne_append (nodup : (p ++ a :: m).Nodup) :
    (p ++ a :: m).dropWhile (· ≠ a) = a :: m := by
  have new : ∀ b ∈ p, b ≠ a := fun b hb => (List.nodup_append.1 nodup).2.2 b hb a (by simp)
  rw [List.dropWhile_append_of_pos (by simpa using new)]
  simp

theorem mem_cycles_iff (h : Elementary edges l) (turn : t ~r l) (least : StartsLeast t) :
    closed t ∈ cycles edges ↔ ∃ p m, m ~r l ∧ Foremost (Depends edges) (p ++ m) := by
  have proper := Digraph.ofEdges_proper edges
  have ordered := Search.Ordered.whole proper (Digraph.ofEdges_ascending edges)
  rw [mem_cycles_iff_mem_found least.ne_nil, ← Digraph.leads_ofEdges_eq]
  constructor
  · intro found
    obtain ⟨p, m, rfl, first⟩ := ordered.found_foremost t found
    exact ⟨p, m, (leastFirst_isRotated m).symm.trans turn, first⟩
  · rintro ⟨p, m, round, first⟩
    have calls : (closed m).IsChain (Depends edges) := closed_isChain_of_isRotated round h.calls
    have nodup : m.Nodup := round.nodup_iff.2 h.nodup
    have same : leastFirst m = t := by
      have long : m ≠ [] := by
        rintro rfl
        have := h.long
        simp [← round.perm.length_eq] at this
      exact eq_of_isRotated (leastFirst_startsLeast nodup long) least
        ((leastFirst_isRotated m).trans (round.trans turn.symm))
    cases m with
    | nil =>
      have := h.long
      simp [← round.perm.length_eq] at this
    | cons b m =>
      obtain ⟨a, ends⟩ : ∃ a, (b :: m).getLast? = some a := by simp [List.getLast?_cons]
      have back : Depends edges a b := (List.isChain_append.1 calls).2.2 a ends b (by simp)
      have last : a ∈ (p ++ b :: m).getLast? := by
        rw [List.getLast?_append_of_ne_nil _ (by simp)]
        exact ends
      have recorded := ordered.recorded_whole proper first last (by simp) (Digraph.leads_ofEdges.2 back)
      rwa [dropWhile_ne_append first.nodup, same] at recorded

/-- Whether it is reported or not, a cycle has a call in it by which a reported one is closed. -/
theorem Elementary.exists_shared (h : Elementary edges l) :
    ∃ c ∈ cycles edges, ∃ a b, [a, b] <:+: closed l ∧ [a, b] <:+: c := by
  obtain ⟨cut, on, -, acyclic⟩ := exists_cut edges
  by_contra apart
  have ne : l ≠ [] := by
    rintro rfl
    exact absurd h.long (by simp)
  have calls := List.isChain_iff_forall_rel_of_append_cons_cons.1 h.calls
  refine not_acyclic_of_closed ne ?_ acyclic
  refine List.isChain_iff_forall_rel_of_append_cons_cons.2 fun a b front back split => ?_
  refine ⟨calls split, fun c hc same => apart ⟨c, hc, a, b, ⟨front, back, by simp [split]⟩, ?_⟩⟩
  simpa [same] using on c hc

/-- An elementary cycle, turned to its least service and closed, is reported exactly when, written from
one of its services on, it ends the first of all simple paths to where it ends. Every other shares a call
with one that is reported. -/
theorem elementary_reported (h : Elementary edges l) (turn : t ~r l) (least : StartsLeast t) :
    (closed t ∈ cycles edges ↔ ∃ p m, m ~r l ∧ Foremost (Depends edges) (p ++ m)) ∧
      ∃ c ∈ cycles edges, ∃ a b, [a, b] <:+: closed l ∧ [a, b] <:+: c :=
  ⟨mem_cycles_iff h turn least, h.exists_shared⟩

/-- A cycle of three services, and a call that cuts it short. -/
def shortcut : List Edge :=
  [⟨"a", "b", .ofList ["x"]⟩, ⟨"a", "c", .ofList ["y"]⟩, ⟨"b", "c", .ofList ["y"]⟩,
    ⟨"c", "a", .ofList ["z"]⟩]

theorem shortcut_cycles : cycles shortcut = [["a", "b", "c", "a"]] := by cbv

theorem elementary_reported_shortcut :
    Elementary shortcut ["b", "c", "a"] ∧ ["a", "b", "c"] ~r ["b", "c", "a"] ∧
      StartsLeast ["a", "b", "c"] ∧ closed ["a", "b", "c"] ∈ cycles shortcut ∧
      ∃ p m, m ~r ["b", "c", "a"] ∧ Foremost (Depends shortcut) (p ++ m) := by
  have elementary : Elementary shortcut ["b", "c", "a"] :=
    ⟨by decide, by decide, by simp [closed, Depends, shortcut]⟩
  have turn : ["a", "b", "c"] ~r ["b", "c", "a"] := ⟨1, rfl⟩
  have least : StartsLeast ["a", "b", "c"] := by simp [StartsLeast]; decide
  have found : closed ["a", "b", "c"] ∈ cycles shortcut := by simp [shortcut_cycles, closed]
  exact ⟨elementary, turn, least, found, (elementary_reported elementary turn least).1.1 found⟩

/-- The two services at the ends of the shortcut call one another, but the search has gone the long way
round before it comes to the shortcut. -/
theorem shortcut_unreported :
    Elementary shortcut ["a", "c"] ∧ StartsLeast ["a", "c"] ∧ closed ["a", "c"] ∉ cycles shortcut := by
  refine ⟨⟨by decide, by decide, by simp [closed, Depends, shortcut]⟩, by simp [StartsLeast]; decide, ?_⟩
  simp [shortcut_cycles, closed]

end ServiceMap
