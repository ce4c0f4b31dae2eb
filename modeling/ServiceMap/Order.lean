/-! Sorting by a comparison, and lists in strictly ascending order. -/

namespace ServiceMap

/-- `l` in ascending order; equals stay in the order in which they came. -/
def sortBy {α : Type} (cmp : α → α → Ordering) (l : List α) : List α :=
  l.mergeSort fun a b => (cmp a b).isLE

theorem sortBy_perm {α : Type} (cmp : α → α → Ordering) (l : List α) : (sortBy cmp l).Perm l :=
  List.mergeSort_perm l _

theorem mem_sortBy {α : Type} {cmp : α → α → Ordering} {l : List α} {a : α} :
    a ∈ sortBy cmp l ↔ a ∈ l :=
  (sortBy_perm cmp l).mem_iff

theorem isLE_total {α : Type} (cmp : α → α → Ordering) [Std.OrientedCmp cmp] (a b : α) :
    (cmp a b).isLE || (cmp b a).isLE := by
  rw [Bool.or_eq_true]
  cases h : cmp a b with
  | lt => simp
  | eq => simp
  | gt => exact .inr (by simp [Std.OrientedCmp.lt_of_gt h])

theorem sortBy_pairwise {α : Type} (cmp : α → α → Ordering) [Std.TransCmp cmp] (l : List α) :
    (sortBy cmp l).Pairwise fun a b => (cmp a b).isLE :=
  List.pairwise_mergeSort (fun _ _ _ => Std.TransCmp.isLE_trans) (isLE_total cmp) l

/-- What is left of `l` after `last` when a member is dropped that is the same as the one kept
before it. -/
def firstsAfter {α : Type} (same : α → α → Bool) (last : α) : List α → List α
  | [] => []
  | a :: l => if same last a then firstsAfter same last l else a :: firstsAfter same a l

/-- The first member of each run of members that are the same. -/
def firsts {α : Type} (same : α → α → Bool) : List α → List α
  | [] => []
  | a :: l => a :: firstsAfter same a l

/-- The members of `l` in strictly ascending order. -/
def ascending {α : Type} (cmp : α → α → Ordering) (l : List α) : List α :=
  firsts (fun a b => cmp a b = .eq) (sortBy cmp l)

theorem mem_of_mem_firstsAfter {α : Type} {same : α → α → Bool} {last a : α} {l : List α}
    (h : a ∈ firstsAfter same last l) : a ∈ l := by
  induction l generalizing last with
  | nil => simp [firstsAfter] at h
  | cons b l ih =>
    rw [firstsAfter] at h
    split at h
    · exact List.mem_cons_of_mem _ (ih h)
    · rcases List.mem_cons.1 h with rfl | h
      · exact List.mem_cons_self
      · exact List.mem_cons_of_mem _ (ih h)

theorem mem_of_mem_firsts {α : Type} {same : α → α → Bool} {a : α} {l : List α}
    (h : a ∈ firsts same l) : a ∈ l := by
  cases l with
  | nil => simp [firsts] at h
  | cons b l =>
    rcases List.mem_cons.1 h with rfl | h
    · exact List.mem_cons_self
    · exact List.mem_cons_of_mem _ (mem_of_mem_firstsAfter h)

/-- A member that is dropped comes behind one that is kept. -/
theorem exists_mem_firstsAfter {α : Type} {same : α → α → Bool} {r : α → α → Prop} {last a : α}
    {l : List α} (rising : (last :: l).Pairwise r) (h : a ∈ l) :
    ∃ b ∈ last :: firstsAfter same last l, b = a ∨ same b a = true ∧ r b a := by
  induction l generalizing last with
  | nil => simp at h
  | cons c l ih =>
    obtain ⟨up, rest⟩ := List.pairwise_cons.1 rising
    rw [firstsAfter]
    rcases List.mem_cons.1 h with rfl | h
    · split
      · next drop => exact ⟨last, List.mem_cons_self, .inr ⟨drop, up a List.mem_cons_self⟩⟩
      · exact ⟨a, by simp, .inl rfl⟩
    · split
      · have behind : ∀ b ∈ l, r last b := fun b hb => up b (List.mem_cons_of_mem _ hb)
        exact ih (List.pairwise_cons.2 ⟨behind, (List.pairwise_cons.1 rest).2⟩) h
      · obtain ⟨b, hb, like⟩ := ih rest h
        exact ⟨b, List.mem_cons_of_mem _ hb, like⟩

/-- Every member is kept, or is the same as one that is kept and comes before it. -/
theorem exists_before_mem_firsts {α : Type} {same : α → α → Bool} {r : α → α → Prop} {a : α}
    {l : List α} (rising : l.Pairwise r) (h : a ∈ l) :
    ∃ b ∈ firsts same l, b = a ∨ same b a = true ∧ r b a := by
  cases l with
  | nil => simp at h
  | cons c l =>
    rcases List.mem_cons.1 h with rfl | h
    · exact ⟨a, List.mem_cons_self, .inl rfl⟩
    · exact exists_mem_firstsAfter rising h

/-- Every member is kept, or is the same as one that is. -/
theorem exists_mem_firsts {α : Type} {same : α → α → Bool} {a : α} {l : List α} (h : a ∈ l) :
    ∃ b ∈ firsts same l, b = a ∨ same b a := by
  have any : l.Pairwise fun _ _ => True := List.pairwise_of_forall fun _ _ => trivial
  obtain ⟨b, hb, like⟩ := exists_before_mem_firsts any h
  exact ⟨b, hb, like.imp_right And.left⟩

theorem firstsAfter_pairwise {α : Type} {cmp : α → α → Ordering} [Std.TransCmp cmp] {last : α}
    {l : List α} (h : (last :: l).Pairwise fun a b => (cmp a b).isLE) :
    (last :: firstsAfter (fun a b => cmp a b = .eq) last l).Pairwise fun a b => cmp a b = .lt := by
  induction l generalizing last with
  | nil => simp [firstsAfter]
  | cons b l ih =>
    rw [firstsAfter]
    obtain ⟨up, rest⟩ := List.pairwise_cons.1 h
    split
    · exact ih (List.pairwise_cons.2
        ⟨fun c hc => up c (List.mem_cons_of_mem _ hc), (List.pairwise_cons.1 rest).2⟩)
    · next differ =>
      have step : cmp last b = .lt := by
        have le := up b List.mem_cons_self
        cases hb : cmp last b with
        | lt => rfl
        | eq => simp [hb] at differ
        | gt => simp [hb] at le
      refine List.pairwise_cons.2 ⟨fun c hc => ?_, ih rest⟩
      rcases List.mem_cons.1 hc with rfl | hc
      · exact step
      · exact Std.TransCmp.lt_of_lt_of_isLE step
          ((List.pairwise_cons.1 rest).1 c (mem_of_mem_firstsAfter hc))

theorem firsts_pairwise {α : Type} {cmp : α → α → Ordering} [Std.TransCmp cmp] {l : List α}
    (h : l.Pairwise fun a b => (cmp a b).isLE) :
    (firsts (fun a b => cmp a b = .eq) l).Pairwise fun a b => cmp a b = .lt := by
  cases l with
  | nil => simp [firsts]
  | cons b l => exact firstsAfter_pairwise h

theorem mem_ascending {α : Type} {cmp : α → α → Ordering} [Std.LawfulEqCmp cmp] {l : List α}
    {a : α} : a ∈ ascending cmp l ↔ a ∈ l := by
  constructor
  · exact fun h => mem_sortBy.1 (mem_of_mem_firsts h)
  · intro h
    obtain ⟨b, hb, like⟩ : ∃ b ∈ ascending cmp l, b = a ∨ decide (cmp b a = .eq) = true :=
      exists_mem_firsts (mem_sortBy.2 h)
    rcases like with rfl | same
    · exact hb
    · rwa [← Std.LawfulEqCmp.eq_of_compare (of_decide_eq_true same)]

theorem ascending_pairwise {α : Type} (cmp : α → α → Ordering) [Std.TransCmp cmp] (l : List α) :
    (ascending cmp l).Pairwise fun a b => cmp a b = .lt :=
  firsts_pairwise (sortBy_pairwise cmp l)

/-- The members of `l`, each at its first place only. -/
def distinct {α : Type} [DecidableEq α] (l : List α) : List α := l.eraseDups

end ServiceMap
