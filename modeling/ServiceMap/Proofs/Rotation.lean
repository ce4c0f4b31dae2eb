import Mathlib.Data.List.Cycle
import ServiceMap.Graph.Cycles
import ServiceMap.Proofs.Sorting

/-! A cycle turned so that its least member comes first: it is a rotation, the only one that starts
with the least member, so that two cycles are turned to the same one just if they are rotations of one
another. Closing turned cycles keeps their order. -/

namespace ServiceMap

open scoped List

/-- The first member is below all others. -/
def StartsLeast : List String → Prop
  | [] => False
  | a :: rest => ∀ b ∈ rest, compare a b = .lt

theorem leastFirst_isRotated (l : List String) : leastFirst l ~r l := by
  unfold leastFirst
  split
  · next empty =>
    have : l = [] := by simpa [empty] using (sortBy_perm compare l).symm
    rw [this]
  · next least rest sorted =>
    have turn : l.dropWhile (· ≠ least) ++ l.takeWhile (· ≠ least) ~r
        l.takeWhile (· ≠ least) ++ l.dropWhile (· ≠ least) := List.isRotated_append
    rwa [List.takeWhile_append_dropWhile] at turn

theorem dropWhile_ne_eq_cons {a : String} {l : List String} (h : a ∈ l) :
    ∃ rest, l.dropWhile (· ≠ a) = a :: rest := by
  induction l with
  | nil => simp at h
  | cons b l ih =>
    by_cases eq : b = a
    · exact ⟨l, by simp [eq]⟩
    · obtain ⟨rest, drop⟩ := ih (by simpa [Ne.symm eq] using h)
      exact ⟨rest, by simpa [eq] using drop⟩

theorem sortBy_head {l sorted : List String} {least : String} (eq : sortBy compare l = least :: sorted) :
    least ∈ l ∧ ∀ a ∈ l, (compare least a).isLE := by
  have rising := sortBy_pairwise compare l
  rw [eq] at rising
  have same : ∀ a, a ∈ l ↔ a ∈ least :: sorted := fun a => by rw [← eq, mem_sortBy]
  exact ⟨(same least).2 List.mem_cons_self, fun a ha => isLE_head rising ((same a).1 ha)⟩

/-- What is turned starts with a member that no other is below. -/
theorem leastFirst_cons {l : List String} (ne : l ≠ []) :
    ∃ least rest, leastFirst l = least :: rest ∧ ∀ a ∈ l, (compare least a).isLE := by
  unfold leastFirst
  split
  · next empty => exact absurd (by simpa [empty] using (sortBy_perm compare l).symm) ne
  · next least _ eq =>
    obtain ⟨mem, below⟩ := sortBy_head eq
    obtain ⟨rest, drop⟩ := dropWhile_ne_eq_cons mem
    exact ⟨least, _, by rw [drop, List.cons_append], below⟩

theorem leastFirst_startsLeast {l : List String} (nodup : l.Nodup) (ne : l ≠ []) :
    StartsLeast (leastFirst l) := by
  have turn := leastFirst_isRotated l
  obtain ⟨least, rest, turned, below⟩ := leastFirst_cons ne
  rw [turned] at turn ⊢
  intro b hb
  have differ : least ≠ b := fun eq => (List.nodup_cons.1 (turn.nodup_iff.2 nodup)).1 (eq ▸ hb)
  have le := below b (turn.mem_iff.1 (List.mem_cons_of_mem _ hb))
  cases h : compare least b with
  | lt => rfl
  | eq => exact absurd (Std.LawfulEqCmp.eq_of_compare h) differ
  | gt => simp [h] at le

/-- A list that starts with its least member stays as it is. -/
theorem leastFirst_eq_self {least : String} {rest : List String}
    (below : ∀ a ∈ rest, (compare least a).isLE) : leastFirst (least :: rest) = least :: rest := by
  unfold leastFirst
  split
  · next empty => simpa [empty] using sortBy_perm compare (least :: rest)
  · next first _ eq =>
    obtain ⟨mem, le⟩ := sortBy_head eq
    have ge : (compare least first).isLE := by
      rcases List.mem_cons.1 mem with rfl | mem
      · simp
      · exact below first mem
    obtain rfl : first = least := by
      have level := Std.OrientedCmp.isLE_antisymm (le least List.mem_cons_self) ge
      exact Std.LawfulEqCmp.eq_of_compare level
    simp

theorem append_comm_of_startsLeast {front back : List String} (h : StartsLeast (front ++ back))
    (turned : StartsLeast (back ++ front)) : front ++ back = back ++ front := by
  cases front with
  | nil => simp
  | cons a front =>
    cases back with
    | nil => simp
    | cons b back =>
      have ab : compare a b = .lt := h b (by simp)
      have ba : compare b a = .lt := turned a (by simp)
      exact absurd (Std.OrientedCmp.gt_of_lt ab) (by simp [ba])

theorem eq_of_isRotated {a b : List String} (ha : StartsLeast a) (hb : StartsLeast b)
    (turn : a ~r b) : a = b := by
  obtain ⟨n, le, rfl⟩ := List.isRotated_iff_mod.1 turn
  rw [List.rotate_eq_drop_append_take le] at hb ⊢
  have whole : StartsLeast (a.take n ++ a.drop n) := by rwa [List.take_append_drop]
  have := append_comm_of_startsLeast whole hb
  rwa [List.take_append_drop] at this

@[simp] theorem leastFirst_nil : leastFirst [] = [] := by simp [leastFirst, sortBy]

theorem leastFirst_leastFirst (l : List String) : leastFirst (leastFirst l) = leastFirst l := by
  by_cases ne : l = []
  · simp [ne]
  · have turn := leastFirst_isRotated l
    obtain ⟨least, rest, turned, below⟩ := leastFirst_cons ne
    rw [turned] at turn ⊢
    exact leastFirst_eq_self fun a ha => below a (turn.mem_iff.1 (List.mem_cons_of_mem _ ha))

theorem leastFirst_eq_of_isRotated {a b : List String} (nodup : a.Nodup) (turn : a ~r b) :
    leastFirst a = leastFirst b := by
  by_cases ne : a = []
  · subst ne
    rw [List.isRotated_nil_iff'.1 turn]
  · have other : b ≠ [] := by
      rintro rfl
      exact ne (List.isRotated_nil_iff.1 turn)
    have starts := leastFirst_startsLeast nodup ne
    have startsB := leastFirst_startsLeast (turn.nodup_iff.1 nodup) other
    have both : leastFirst a ~r leastFirst b :=
      (leastFirst_isRotated a).trans (turn.trans (leastFirst_isRotated b).symm)
    exact eq_of_isRotated starts startsB both

/-- Two cycles are turned to the same one just if one is a rotation of the other; what is turned is a
rotation, starts with the least member and is not turned further. -/
theorem leastFirst_canonical {a : List String} (nodup : a.Nodup) (b : List String) :
    (leastFirst a = leastFirst b ↔ a ~r b) ∧ a ~r leastFirst a ∧
      (a = [] ∨ StartsLeast (leastFirst a)) ∧ leastFirst (leastFirst a) = leastFirst a := by
  refine ⟨⟨fun same => ?_, leastFirst_eq_of_isRotated nodup⟩, (leastFirst_isRotated a).symm, ?_,
    leastFirst_leastFirst a⟩
  · have turn := leastFirst_isRotated b
    rw [← same] at turn
    exact (leastFirst_isRotated a).symm.trans turn
  · by_cases ne : a = []
    · exact .inl ne
    · exact .inr (leastFirst_startsLeast nodup ne)

/-- A ring of three, from its second and from its last member on. -/
theorem leastFirst_canonical_ring :
    ["mid", "zeta", "alpha"].Nodup ∧ ["mid", "zeta", "alpha"] ~r ["zeta", "alpha", "mid"] ∧
      leastFirst ["mid", "zeta", "alpha"] = leastFirst ["zeta", "alpha", "mid"] ∧
      StartsLeast (leastFirst ["mid", "zeta", "alpha"]) := by
  have nodup : ["mid", "zeta", "alpha"].Nodup := by decide
  have turn : ["mid", "zeta", "alpha"] ~r ["zeta", "alpha", "mid"] := ⟨1, rfl⟩
  obtain ⟨same, -, starts, -⟩ := leastFirst_canonical nodup ["zeta", "alpha", "mid"]
  exact ⟨nodup, turn, same.2 turn, starts.resolve_left (by simp)⟩

theorem compare_append_least {least : String} {s t : List String}
    (above : ∀ b ∈ t, compare least b = .lt) (lt : compare s t = .lt) :
    compare (s ++ [least]) (t ++ [least]) = .lt := by
  induction s generalizing t with
  | nil =>
    cases t with
    | nil => simp at lt
    | cons b t => simp [above b List.mem_cons_self]
  | cons a s ih =>
    cases t with
    | nil => simp at lt
    | cons b t =>
      rw [List.compare_cons_cons, Ordering.then_eq_lt] at lt
      rcases lt with lt | ⟨eq, lt⟩
      · simp [lt]
      · simpa [eq] using ih (fun c hc => above c (List.mem_cons_of_mem _ hc)) lt

/-- Closing cycles keeps their order: one that goes on where another ends goes on above the least
member, with which the other is closed. -/
theorem compare_closed {a b : List String} (ha : StartsLeast a) (hb : StartsLeast b)
    (lt : compare a b = .lt) : compare (closed a) (closed b) = .lt := by
  cases a with
  | nil => exact ha.elim
  | cons x s =>
    cases b with
    | nil => exact hb.elim
    | cons y t =>
      rw [List.compare_cons_cons, Ordering.then_eq_lt] at lt
      simp only [closed, List.take_succ_cons, List.take_zero, List.cons_append,
        List.compare_cons_cons]
      rcases lt with lt | ⟨eq, lt⟩
      · simp [lt]
      · obtain rfl := Std.LawfulEqCmp.eq_of_compare eq
        simpa using compare_append_least hb lt

theorem closed_isChain_iff {r : String → String → Prop} {l : List String} :
    (closed l).IsChain r ↔ Cycle.Chain r (l : Cycle String) := by
  cases l with
  | nil => simp [closed]
  | cons a l => simp [closed]

theorem closed_isChain_of_isRotated {r : String → String → Prop} {a b : List String}
    (turn : a ~r b) (chain : (closed b).IsChain r) : (closed a).IsChain r := by
  rw [closed_isChain_iff] at chain ⊢
  rwa [Cycle.coe_eq_coe.2 turn]

end ServiceMap
