import ServiceMap.Graph.Edge
import ServiceMap.Registry

/-! What a diagram of the services shows: the services, grouped by language, and the edges between
them. -/

namespace ServiceMap

/-- The services of one language, by name. -/
structure Group where
  language : Language
  members : List String

namespace Registry

/-- One group for each language with a service. -/
def groups (r : Registry) : List Group :=
  (Language.all.map fun l =>
    ⟨l, sortBy compare ((r.services.filter fun s => s.language = l).map Service.name)⟩).filter
      fun g => !g.members.isEmpty

end Registry

namespace Edge

/-- What is written on an edge. -/
def label (e : Edge) : String := s!"{e.apis.size} APIs"

end Edge
end ServiceMap
