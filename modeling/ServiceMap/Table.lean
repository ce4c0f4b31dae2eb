import Std.Data.TreeMap

/-! Tables that fill up item by item. -/

namespace ServiceMap

/-- Changes what stands under a key; where nothing stands yet, it is `fresh` that is changed. -/
def changeAt {κ α : Type} {cmp : κ → κ → Ordering} (t : Std.TreeMap κ α cmp) (k : κ) (fresh : α)
    (change : α → α) : Std.TreeMap κ α cmp :=
  t.insert k (change (t.getD k fresh))

end ServiceMap
