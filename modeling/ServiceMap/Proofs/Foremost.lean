import Mathlib.Data.List.Nodup
import ServiceMap.Order

/-! Simple paths, and of all those that end in one place the one that comes first when they are compared
as lists. -/

namespace ServiceMap

/-- A path along `r` that meets nothing twice. -/
structure SimplePath (r : String → String → Prop) (p : List String) : Prop where
  chain : p.IsChain r
  nodup : p.Nodup

/-- The first, in the order of lists, of all simple paths to where it ends. -/
structure Foremost (r : String → String → Prop) (p : List String) : Prop extends SimplePath r p where
  first : ∀ q, SimplePath r q → q.getLast? = p.getLast? → (compare p q).isLE

variable {r : String → String → Prop} {p q c s t : List String} {a b : String}

theorem Foremost.unique (hp : Foremost r p) (hq : Foremost r q) (same : p.getLast? = q.getLast?) :
    p = q := by
  have le := hp.first q hq.toSimplePath same.symm
  have ge := hq.first p hp.toSimplePath same
  exact Std.LawfulEqOrd.eq_of_compare (Std.OrientedCmp.isLE_antisymm le ge)

theorem getLast?_eq_of_cons (newP : a ∉ p) (newQ : a ∉ q)
    (same : (a :: p).getLast? = (a :: q).getLast?) : p.getLast? = q.getLast? := by
  rw [List.getLast?_cons, List.getLast?_cons, Option.some.injEq] at same
  cases hp : p.getLast? with
  | none =>
    cases hq : q.getLast? with
    | none => rfl
    | some b =>
      obtain rfl : a = b := by simpa [hp, hq] using same
      exact absurd (List.mem_of_mem_getLast? hq) newQ
  | some b =>
    cases hq : q.getLast? with
    | none =>
      obtain rfl : b = a := by simpa [hp, hq] using same
      exact absurd (List.mem_of_mem_getLast? hp) newP
    | some c => simpa [hp, hq] using same

/-- Two ways to one end that meet nothing twice part before it. -/
theorem exists_fork (hp : p.Nodup) (hq : q.Nodup) (ne : p ≠ q) (same : p.getLast? = q.getLast?) :
    ∃ c a s b t, p = c ++ a :: s ∧ q = c ++ b :: t ∧ a ≠ b := by
  induction p generalizing q with
  | nil =>
    have : q = [] := by simpa using same.symm
    exact absurd this.symm ne
  | cons a p ih =>
    cases q with
    | nil => simp at same
    | cons b q =>
      by_cases eq : a = b
      · subst eq
        have differ : p ≠ q := fun eq => ne (by rw [eq])
        obtain ⟨newP, hp⟩ := List.nodup_cons.1 hp
        obtain ⟨newQ, hq⟩ := List.nodup_cons.1 hq
        obtain ⟨c, a', s, b', t, rfl, rfl, other⟩ :=
          ih hp hq differ (getLast?_eq_of_cons newP newQ same)
        exact ⟨a :: c, a', s, b', t, rfl, rfl, other⟩
      · exact ⟨[], a, p, b, q, rfl, rfl, eq⟩

theorem compare_append_left (c s t : List String) : compare (c ++ s) (c ++ t) = compare s t := by
  induction c with
  | nil => rfl
  | cons a c ih => simp [List.compare_cons_cons, ih]

/-- A simple path is the first of its end when no fork of it to a lesser node leads there. -/
theorem SimplePath.foremost (path : SimplePath r p)
    (cut : ∀ c b t, p = c ++ b :: t → ∀ a s, compare a b = .lt → SimplePath r (c ++ a :: s) →
      (a :: s).getLast? ≠ p.getLast?) : Foremost r p := by
  refine ⟨path, fun q hq same => ?_⟩
  by_cases eq : p = q
  · simp [eq]
  · obtain ⟨c, b, t, a, s, rfl, rfl, differ⟩ := exists_fork path.nodup hq.nodup eq same.symm
    rw [compare_append_left, List.compare_cons_cons]
    cases order : compare b a with
    | lt => rfl
    | eq => exact absurd (Std.LawfulEqOrd.eq_of_compare order) differ
    | gt =>
      have less : compare a b = .lt := Std.OrientedCmp.lt_of_gt order
      refine absurd ?_ (cut c b t rfl a s less hq)
      rw [← same, List.getLast?_append_of_ne_nil]
      simp

end ServiceMap
