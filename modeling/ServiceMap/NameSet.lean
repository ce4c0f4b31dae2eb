import ServiceMap.Order

/-! Sets of names. -/

namespace ServiceMap

/-- A set of names, held in strictly ascending order. -/
structure NameSet where
  toList : List String
  ascending : toList.Pairwise fun a b => compare a b = .lt
  deriving DecidableEq

namespace NameSet

def empty : NameSet := ⟨[], List.Pairwise.nil⟩

def ofList (names : List String) : NameSet :=
  ⟨ServiceMap.ascending compare names, ascending_pairwise compare names⟩

@[simp] theorem mem_toList_ofList {a : String} {names : List String} :
    a ∈ (ofList names).toList ↔ a ∈ names :=
  mem_ascending

/-- The set with one name more, if it is not in it. -/
def insert (s : NameSet) (name : String) : NameSet := ofList (name :: s.toList)

@[simp] theorem mem_toList_insert {a name : String} {s : NameSet} :
    a ∈ (s.insert name).toList ↔ a = name ∨ a ∈ s.toList := by
  simp [insert]

def size (s : NameSet) : Nat := s.toList.length

instance : Ord NameSet := ⟨compareOn toList⟩

instance : Std.TransOrd NameSet := inferInstanceAs (Std.TransCmp (compareOn toList))

end NameSet
end ServiceMap
