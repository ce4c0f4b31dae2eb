import ServiceMap.NameSet
import ServiceMap.Table

/-! Edges between services: one service calls APIs that another provides. -/

namespace ServiceMap

/-- One call, as an edge sees it. -/
structure Link where
  consumer : String
  provider : String
  api : String
  deriving DecidableEq, Repr

structure Edge where
  consumer : String
  provider : String
  apis : NameSet
  deriving DecidableEq

namespace Edge

def isLoop (e : Edge) : Bool := e.consumer = e.provider

/-- Order by the two services alone. -/
def pairOrder : Edge → Edge → Ordering := compareLex (compareOn consumer) (compareOn provider)

instance : Std.TransCmp pairOrder :=
  inferInstanceAs (Std.TransCmp (compareLex (compareOn consumer) (compareOn provider)))

theorem pairOrder_eq {e f : Edge} :
    pairOrder e f = .eq ↔ e.consumer = f.consumer ∧ e.provider = f.provider := by
  simp [pairOrder, compareLex, compareOn, Ordering.then_eq_eq]

instance : Ord Edge := ⟨compareLex pairOrder (compareOn apis)⟩

instance : Std.TransOrd Edge := inferInstanceAs (Std.TransCmp (compareLex pairOrder (compareOn apis)))

end Edge

/-- The APIs of the edges there are so far, by the service that calls and the one that is called. -/
abbrev EdgeTable :=
  Std.TreeMap (String × String) NameSet (compareLex (compareOn Prod.fst) (compareOn Prod.snd))

namespace EdgeTable

def add (t : EdgeTable) (l : Link) : EdgeTable :=
  changeAt t (l.consumer, l.provider) .empty (·.insert l.api)

/-- In ascending order. -/
def edges (t : EdgeTable) : List Edge := t.toList.map fun (pair, apis) => ⟨pair.1, pair.2, apis⟩

end EdgeTable
end ServiceMap
