import Mathlib
import ServiceMap.Table

/-! What a table holds that has filled up item by item: under each key what the items of that key have
come to, in their order. -/

namespace ServiceMap

variable {κ α β : Type} [DecidableEq κ] {cmp : κ → κ → Ordering} [Std.TransCmp cmp]
  [Std.LawfulEqCmp cmp]

theorem getElem?_changeAt (t : Std.TreeMap κ α cmp) (k j : κ) (fresh : α) (change : α → α) :
    (changeAt t k fresh change)[j]? = if k = j then some (change (t[k]?.getD fresh)) else t[j]? := by
  rw [changeAt, Std.TreeMap.getElem?_insert, Std.TreeMap.getD_eq_getD_getElem?]
  simp only [Std.LawfulEqCmp.compare_eq_iff_eq]

/-- The items that belong to a key. -/
def ofKey (key : β → κ) (k : κ) (items : List β) : List β := items.filter fun x => key x = k

theorem getElem?_foldl_changeAt (key : β → κ) (fresh : κ → α) (add : α → β → α) (items : List β)
    (k : κ) :
    (items.foldl (fun t x => changeAt t (key x) (fresh (key x)) (add · x))
        (∅ : Std.TreeMap κ α cmp))[k]? =
      if ofKey key k items = [] then none else some ((ofKey key k items).foldl add (fresh k)) := by
  induction items using List.reverseRecOn generalizing k with
  | nil => simp [ofKey]
  | append_singleton items x ih =>
    rw [List.foldl_append, List.foldl_cons, List.foldl_nil, getElem?_changeAt]
    by_cases own : key x = k
    · have items_x : ofKey key k (items ++ [x]) = ofKey key k items ++ [x] := by simp [ofKey, own]
      subst own
      rw [if_pos rfl, ih, items_x]
      by_cases none : ofKey key (key x) items = [] <;> simp [none]
    · have items_x : ofKey key k (items ++ [x]) = ofKey key k items := by simp [ofKey, own]
      rw [if_neg own, ih, items_x]

end ServiceMap
