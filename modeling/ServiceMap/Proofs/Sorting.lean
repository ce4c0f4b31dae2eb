import Mathlib.Data.List.Pairwise
import Mathlib.Data.List.Perm.Basic
import ServiceMap.Order

/-! When two lists are the same in ascending order. A strictly ascending list is told by its members;
a sorted list is told by its members and, for those that compare equal, the order in which they come. -/

namespace ServiceMap

open scoped List

variable {α β : Type} {cmp : α → α → Ordering} [Std.TransCmp cmp]

theorem nodup_of_ascending {l : List α} (h : l.Pairwise fun a b => cmp a b = .lt) : l.Nodup := by
  refine h.imp fun {a b} lt eq => ?_
  have self : cmp a a = .eq := Std.ReflCmp.compare_self
  rw [← eq, self] at lt
  cases lt

theorem eq_of_ascending {l m : List α} (hl : l.Pairwise fun a b => cmp a b = .lt)
    (hm : m.Pairwise fun a b => cmp a b = .lt) (same : ∀ a, a ∈ l ↔ a ∈ m) : l = m := by
  have perm : l ~ m :=
    (List.perm_ext_iff_of_nodup (nodup_of_ascending hl) (nodup_of_ascending hm)).2 same
  refine perm.eq_of_pairwise (fun a b _ _ ab ba => ?_) hl hm
  rw [Std.OrientedCmp.gt_of_lt ab] at ba
  cases ba

/-- Members of a strictly ascending list that compare equal are the same one. -/
theorem eq_of_level {l : List α} {a b : α} (h : l.Pairwise fun a b => cmp a b = .lt) (ha : a ∈ l)
    (hb : b ∈ l) (level : cmp a b = .eq) : a = b := by
  have symm : Std.Symm fun a b => cmp a b ≠ .eq :=
    ⟨fun _ _ apart same => apart (Std.OrientedCmp.eq_symm same)⟩
  have apart : l.Pairwise fun a b => cmp a b ≠ .eq := h.imp fun {a b} lt => by simp [lt]
  by_contra differ
  exact apart.forall ha hb differ level

/-- In a strictly ascending list what is less than a member stands before it. -/
theorem mem_before_of_lt {l m : List α} {a b : α}
    (h : (l ++ b :: m).Pairwise fun a b => cmp a b = .lt) (mem : a ∈ l ++ b :: m)
    (lt : cmp a b = .lt) : a ∈ l := by
  have self : cmp a a = .eq := Std.ReflCmp.compare_self
  rcases List.mem_append.1 mem with before | behind
  · exact before
  · rcases List.mem_cons.1 behind with rfl | behind
    · rw [self] at lt
      cases lt
    · have rest := (List.pairwise_append.1 h).2.1
      have above : cmp b a = .lt := (List.pairwise_cons.1 rest).1 a behind
      rw [Std.OrientedCmp.gt_of_lt above] at lt
      cases lt

/-- The members that compare equal to `a`. -/
def peers (cmp : α → α → Ordering) (a : α) (l : List α) : List α := l.filter fun b => cmp a b = .eq

omit [Std.TransCmp cmp] in
theorem mem_peers {a b : α} {l : List α} : b ∈ peers cmp a l ↔ b ∈ l ∧ cmp a b = .eq := by
  simp [peers]

omit [Std.TransCmp cmp] in
theorem peers_cons {a b : α} {l : List α} (h : cmp a b = .eq) :
    peers cmp a (b :: l) = b :: peers cmp a l := by
  simp [peers, h]

omit [Std.TransCmp cmp] in
theorem peers_cons_of_ne {a b : α} {l : List α} (h : cmp a b ≠ .eq) :
    peers cmp a (b :: l) = peers cmp a l := by
  simp [peers, h]

omit [Std.TransCmp cmp] in
theorem peers_filter (a : α) (p : α → Bool) (l : List α) :
    peers cmp a (l.filter p) = (peers cmp a l).filter p := by
  rw [peers, peers, List.filter_filter, List.filter_filter]
  exact List.filter_congr fun b _ => Bool.and_comm _ _

/-- Sorting leaves members that compare equal in the order in which they came. -/
theorem peers_sortBy (a : α) (l : List α) : peers cmp a (sortBy cmp l) = peers cmp a l := by
  have level : (peers cmp a l).Pairwise fun b c => (cmp b c).isLE := by
    refine List.pairwise_of_forall_mem_list fun b hb c hc => ?_
    have eq : cmp b c = .eq :=
      Std.TransCmp.eq_trans (Std.OrientedCmp.eq_symm (mem_peers.1 hb).2) (mem_peers.1 hc).2
    simp [eq]
  have within : peers cmp a l <+ sortBy cmp l :=
    List.sublist_mergeSort (fun _ _ _ => Std.TransCmp.isLE_trans) (isLE_total cmp) level
      List.filter_sublist
  have within : peers cmp a l <+ peers cmp a (sortBy cmp l) := by
    have := within.filter fun b => cmp a b = .eq
    simpa [peers] using this
  exact (within.eq_of_length ((sortBy_perm cmp l).filter _).length_eq.symm).symm

theorem isLE_head {a b : α} {l : List α} (h : (a :: l).Pairwise fun a b => (cmp a b).isLE)
    (mem : b ∈ a :: l) : (cmp a b).isLE := by
  rcases List.mem_cons.1 mem with rfl | mem
  · have self : cmp b b = .eq := Std.ReflCmp.compare_self
    simp [self]
  · exact (List.pairwise_cons.1 h).1 b mem

/-- The first members of two sorted lists compare equal when each of them has its like in the other
list. -/
theorem heads_level {a b : α} {l m : List α} (hl : (a :: l).Pairwise fun a b => (cmp a b).isLE)
    (hm : (b :: m).Pairwise fun a b => (cmp a b).isLE) (ha : peers cmp a (b :: m) ≠ [])
    (hb : peers cmp b (a :: l) ≠ []) : cmp a b = .eq := by
  obtain ⟨x, hx⟩ := List.exists_mem_of_ne_nil _ ha
  obtain ⟨y, hy⟩ := List.exists_mem_of_ne_nil _ hb
  obtain ⟨hx, ax⟩ := mem_peers.1 hx
  obtain ⟨hy, bY⟩ := mem_peers.1 hy
  have down : (cmp b a).isLE := by
    have level : cmp x a = .eq := Std.OrientedCmp.eq_symm ax
    exact Std.TransCmp.isLE_trans (isLE_head hm hx) (by simp [level])
  have up : (cmp a b).isLE := by
    have level : cmp y b = .eq := Std.OrientedCmp.eq_symm bY
    exact Std.TransCmp.isLE_trans (isLE_head hl hy) (by simp [level])
  exact Std.OrientedCmp.isLE_antisymm up down

theorem eq_of_peers {l m : List α} (hl : l.Pairwise fun a b => (cmp a b).isLE)
    (hm : m.Pairwise fun a b => (cmp a b).isLE) (same : ∀ a, peers cmp a l = peers cmp a m) :
    l = m := by
  have self : ∀ a, cmp a a = .eq := fun _ => Std.ReflCmp.compare_self
  induction l generalizing m with
  | nil =>
    cases m with
    | nil => rfl
    | cons b m => exact absurd ((same b).trans (peers_cons (self b))) (by simp [peers])
  | cons a l ih =>
    cases m with
    | nil => exact absurd ((same a).symm.trans (peers_cons (self a))) (by simp [peers])
    | cons b m =>
      have level : cmp a b = .eq := by
        refine heads_level hl hm ?_ ?_
        · simp [← same a, peers_cons (self a)]
        · simp [same b, peers_cons (self b)]
      have first : a = b := by
        have := same a
        rw [peers_cons (self a), peers_cons level] at this
        exact (List.cons.inj this).1
      subst first
      refine congrArg (a :: ·) (ih (List.pairwise_cons.1 hl).2 (List.pairwise_cons.1 hm).2 fun c => ?_)
      have := same c
      simp only [peers, List.filter_cons] at this ⊢
      split at this
      · exact (List.cons.inj this).2
      · exact this

theorem sortBy_congr {l m : List α} (same : ∀ a, peers cmp a l = peers cmp a m) :
    sortBy cmp l = sortBy cmp m :=
  eq_of_peers (sortBy_pairwise cmp l) (sortBy_pairwise cmp m) fun a => by
    rw [peers_sortBy, peers_sortBy, same]

/-- Members may be picked before a list is sorted or after. -/
theorem sortBy_filter (p : α → Bool) (l : List α) :
    sortBy cmp (l.filter p) = (sortBy cmp l).filter p :=
  eq_of_peers (sortBy_pairwise cmp _) ((sortBy_pairwise cmp l).filter p) fun a => by
    rw [peers_sortBy, peers_filter, peers_filter, peers_sortBy]

/-- Merging leaves members that compare equal in their order, those of the first list in front. -/
theorem peers_merge {l : List α} (hl : l.Pairwise fun a b => (cmp a b).isLE) (m : List α) (c : α) :
    peers cmp c (l.merge m fun a b => (cmp a b).isLE) = peers cmp c l ++ peers cmp c m := by
  induction l generalizing m with
  | nil => simp [peers]
  | cons a l ih =>
    obtain ⟨least, sorted⟩ := List.pairwise_cons.1 hl
    induction m with
    | nil => simp [peers]
    | cons b m ihm =>
      rw [List.cons_merge_cons]
      split
      · by_cases level : cmp c a = .eq
        · rw [peers_cons level, ih sorted, peers_cons level, List.cons_append]
        · rw [peers_cons_of_ne level, ih sorted, peers_cons_of_ne level]
      · next above =>
        have below : cmp b a = .lt := Std.OrientedCmp.lt_of_gt (by cases h : cmp a b <;> simp_all)
        by_cases level : cmp c b = .eq
        · have none : peers cmp c (a :: l) = [] := by
            refine List.filter_eq_nil_iff.2 fun d hd => ?_
            have up : cmp b d = .lt := by
              rcases List.mem_cons.1 hd with rfl | hd
              · exact below
              · exact Std.TransCmp.lt_of_lt_of_isLE below (least d hd)
            have apart : cmp c d = .lt := Std.TransCmp.lt_of_eq_of_lt level up
            simp [apart]
          rw [peers_cons level, ihm, none, peers_cons level, List.nil_append, List.nil_append]
        · rw [peers_cons_of_ne level, ihm, peers_cons_of_ne level]

/-- What two lists hold, in ascending order, is what they hold in ascending order, merged. -/
theorem sortBy_append (l m : List α) : sortBy cmp (l ++ m) =
    (sortBy cmp l).merge (sortBy cmp m) fun a b => (cmp a b).isLE := by
  refine eq_of_peers (sortBy_pairwise cmp _) ?_ fun c => ?_
  · exact List.pairwise_merge (fun _ _ _ => Std.TransCmp.isLE_trans) (isLE_total cmp) _ _
      (sortBy_pairwise cmp l) (sortBy_pairwise cmp m)
  · rw [peers_merge (sortBy_pairwise cmp l), peers_sortBy, peers_sortBy, peers_sortBy, peers, peers,
      peers, List.filter_append]

/-- Sorted lists that hold the same but for the order differ only in members that compare equal. -/
theorem forall₂_of_peers {l m : List α} (hl : l.Pairwise fun a b => (cmp a b).isLE)
    (hm : m.Pairwise fun a b => (cmp a b).isLE)
    (same : ∀ c, (peers cmp c l).length = (peers cmp c m).length) :
    List.Forall₂ (fun a b => cmp a b = .eq) l m := by
  have self : ∀ a, cmp a a = .eq := fun _ => Std.ReflCmp.compare_self
  have own : ∀ a (l : List α), peers cmp a (a :: l) ≠ [] := fun a l => by simp [peers_cons (self a)]
  induction l generalizing m with
  | nil =>
    cases m with
    | nil => exact .nil
    | cons b m => exact absurd (List.length_eq_zero_iff.1 (same b).symm) (own b m)
  | cons a l ih =>
    cases m with
    | nil => exact absurd (List.length_eq_zero_iff.1 (same a)) (own a l)
    | cons b m =>
      have level : cmp a b = .eq := by
        refine heads_level hl hm (fun none => own a l ?_) fun none => own b m ?_
        · exact List.length_eq_zero_iff.1 ((same a).trans (congrArg _ none))
        · exact List.length_eq_zero_iff.1 ((same b).symm.trans (congrArg _ none))
      refine .cons level (ih (List.pairwise_cons.1 hl).2 (List.pairwise_cons.1 hm).2 fun c => ?_)
      have both := same c
      by_cases first : cmp c a = .eq
      · rw [peers_cons first, peers_cons (Std.TransCmp.eq_trans first level)] at both
        simpa using both
      · have second : cmp c b ≠ .eq := fun eq =>
          first (Std.TransCmp.eq_trans eq (Std.OrientedCmp.eq_symm level))
        rwa [peers_cons_of_ne first, peers_cons_of_ne second] at both

theorem sortBy_forall₂_of_perm {l m : List α} (perm : l ~ m) :
    List.Forall₂ (fun a b => cmp a b = .eq) (sortBy cmp l) (sortBy cmp m) := by
  refine forall₂_of_peers (sortBy_pairwise cmp l) (sortBy_pairwise cmp m) fun c => ?_
  rw [peers_sortBy, peers_sortBy]
  exact (perm.filter _).length_eq

/-- Two lists commute when every member of one is every member of the other. -/
theorem append_comm_of_forall_eq {l m : List α} (h : ∀ a ∈ l, ∀ b ∈ m, a = b) :
    l ++ m = m ++ l := by
  cases l with
  | nil => simp
  | cons a l =>
    have hm : m = List.replicate m.length a :=
      List.eq_replicate_of_mem fun b hb => (h a List.mem_cons_self b hb).symm
    cases m with
    | nil => simp
    | cons b m =>
      have hl : a :: l = List.replicate (l.length + 1) a :=
        List.eq_replicate_of_mem fun c hc => by
          rw [h c hc b List.mem_cons_self, h a List.mem_cons_self b List.mem_cons_self]
      rw [hl, hm, List.replicate_append_replicate, List.replicate_append_replicate, Nat.add_comm]

theorem flatMap_perm {f : β → List α} {xs ys : List β} (perm : xs ~ ys)
    (commute : xs.Pairwise fun x y => f x ++ f y = f y ++ f x) : xs.flatMap f = ys.flatMap f := by
  induction perm with
  | nil => rfl
  | cons x _ ih => rw [List.flatMap_cons, List.flatMap_cons, ih (List.pairwise_cons.1 commute).2]
  | swap x y l =>
    have swap : f y ++ f x = f x ++ f y := (List.pairwise_cons.1 commute).1 x List.mem_cons_self
    simp only [List.flatMap_cons, ← List.append_assoc, swap]
  | trans perm _ ih₁ ih₂ =>
    rw [ih₁ commute, ih₂ ((perm.pairwise_iff fun h => h.symm).1 commute)]

/-- Lists that are sorted as one may be taken in any order, when members of two of them that
compare equal are equal. -/
theorem sortBy_flatMap_perm {f : β → List α} {xs ys : List β} (perm : xs ~ ys)
    (apart : xs.Pairwise fun x y => ∀ a ∈ f x, ∀ b ∈ f y, cmp a b = .eq → a = b) :
    sortBy cmp (xs.flatMap f) = sortBy cmp (ys.flatMap f) := by
  refine sortBy_congr fun c => ?_
  have split : ∀ l : List β, peers cmp c (l.flatMap f) = l.flatMap fun x => peers cmp c (f x) :=
    fun l => List.filter_flatMap
  rw [split, split]
  refine flatMap_perm perm (apart.imp fun {x y} equal => append_comm_of_forall_eq fun a ha b hb => ?_)
  obtain ⟨ha, ca⟩ := mem_peers.1 ha
  obtain ⟨hb, cb⟩ := mem_peers.1 hb
  exact equal a ha b hb (Std.TransCmp.eq_trans (Std.OrientedCmp.eq_symm ca) cb)

/-- Members may come in any order if those that compare equal are equal. -/
theorem sortBy_congr_of_perm {l m : List α} (perm : l ~ m)
    (level : l.Pairwise fun a b => cmp a b = .eq → a = b) : sortBy cmp l = sortBy cmp m := by
  have each : l.Pairwise fun a b => ∀ x ∈ [a], ∀ y ∈ [b], cmp x y = .eq → x = y :=
    level.imp fun {a b} same => by simpa using same
  have blocks := sortBy_flatMap_perm perm each
  rwa [List.flatMap_singleton', List.flatMap_singleton'] at blocks

/-- Members that all compare different may come in any order. -/
theorem sortBy_eq_of_perm {l m : List α} (perm : l ~ m)
    (apart : l.Pairwise fun a b => cmp a b ≠ .eq) : sortBy cmp l = sortBy cmp m :=
  sortBy_congr_of_perm perm (apart.imp fun differ same => absurd same differ)

/-- Lists of which each one is below the next may be sorted one by one. -/
theorem sortBy_flatMap {f : β → List α} {xs : List β}
    (rising : xs.Pairwise fun x y => ∀ a ∈ f x, ∀ b ∈ f y, (cmp a b).isLE) :
    sortBy cmp (xs.flatMap f) = xs.flatMap fun x => sortBy cmp (f x) := by
  refine eq_of_peers (sortBy_pairwise cmp _) ?_ fun a => ?_
  · refine List.pairwise_flatMap.2 ⟨fun x _ => sortBy_pairwise cmp _, rising.imp fun up a ha b hb => ?_⟩
    exact up a (mem_sortBy.1 ha) b (mem_sortBy.1 hb)
  · rw [peers_sortBy, peers, peers, List.filter_flatMap, List.filter_flatMap]
    exact congrArg xs.flatMap (funext fun x => (peers_sortBy a (f x)).symm)

/-- What has one of some keys is there once, taken key by key. -/
theorem flatMap_filter_perm_filter {κ : Type} [DecidableEq κ] (key : α → κ) {keys : List κ}
    (nodup : keys.Nodup) (l : List α) :
    (keys.flatMap fun k => l.filter fun a => key a = k) ~ l.filter fun a => key a ∈ keys := by
  induction keys with
  | nil => simp
  | cons k keys ih =>
    obtain ⟨new, nodup⟩ := List.nodup_cons.1 nodup
    have first : (l.filter fun a => key a ∈ k :: keys).filter (fun a => key a = k) =
        l.filter fun a => key a = k := by
      rw [List.filter_filter]
      refine List.filter_congr fun a _ => ?_
      by_cases same : key a = k
      · simp [same]
      · simp [same]
    have others : ((l.filter fun a => key a ∈ k :: keys).filter fun a => !decide (key a = k)) =
        l.filter fun a => key a ∈ keys := by
      rw [List.filter_filter]
      refine List.filter_congr fun a _ => ?_
      by_cases same : key a = k
      · simp [same, new]
      · simp [same]
    have parts := List.filter_append_perm (fun a => decide (key a = k))
      (l.filter fun a => key a ∈ k :: keys)
    rw [first, others] at parts
    rw [List.flatMap_cons]
    exact ((ih nodup).append_left _).trans parts

theorem flatMap_filter_perm {κ : Type} [DecidableEq κ] (key : α → κ) {keys : List κ}
    (nodup : keys.Nodup) {l : List α} (all : ∀ a ∈ l, key a ∈ keys) :
    (keys.flatMap fun k => l.filter fun a => key a = k) ~ l := by
  have every : (l.filter fun a => key a ∈ keys) = l :=
    List.filter_eq_self.2 fun a ha => decide_eq_true (all a ha)
  have groups := flatMap_filter_perm_filter key nodup l
  rwa [every] at groups

theorem flatMap_filter_not_isEmpty (f : α → List β) (l : List α) :
    (l.filter fun a => !(f a).isEmpty).flatMap f = l.flatMap f := by
  induction l with
  | nil => rfl
  | cons a l ih =>
    cases empty : f a with
    | nil => simp [empty, ih]
    | cons b m => simp [empty, ih]

end ServiceMap
