import ServiceMap.Graph.Edge
import ServiceMap.Registry

/-! Whether the edges of the graph are declared. A declaration speaks of services, whatever APIs
the edge has. -/

namespace ServiceMap

structure EdgeStatus where
  edge : Edge
  declared : Bool

/-- A declared dependency that no edge uses. -/
structure UnusedDeclaration where
  service : String
  dependency : String
  requirement : Requirement
  deriving DecidableEq, Repr

structure DeclarationReport where
  /-- The edges of each service, by name. Every registered service has its entry. -/
  perService : List (String × List EdgeStatus)
  /-- The edges that are not declared. -/
  missing : List Edge
  unused : List UnusedDeclaration

namespace DeclarationReport

def valid (d : DeclarationReport) : Bool := d.missing.isEmpty

def status (r : Registry) (e : Edge) : EdgeStatus := ⟨e, r.declares e.consumer e.provider⟩

/-- The edges from `service`, by provider. -/
def outgoing (service : String) (statuses : List EdgeStatus) : List EdgeStatus :=
  sortBy (compareOn fun s => s.edge.provider) (statuses.filter fun s => s.edge.consumer = service)

def isUsed (statuses : List EdgeStatus) (service dependency : String) : Bool :=
  statuses.any fun s => s.declared && s.edge.consumer = service && s.edge.provider = dependency

def declarations (r : Registry) : List UnusedDeclaration :=
  r.services.flatMap fun s => s.dependencies.map fun d => ⟨s.name, d.service, d.requirement⟩

/-- Edges from a service to itself are passed over. -/
def ofEdges (edges : List Edge) (r : Registry) : DeclarationReport :=
  let statuses := (edges.filter (!·.isLoop)).map (status r)
  let names := ascending compare
    (r.services.map Service.name ++ statuses.map fun s => s.edge.consumer)
  { perService := names.map fun name => (name, outgoing name statuses)
    missing := sortBy Edge.pairOrder ((statuses.filter (!·.declared)).map EdgeStatus.edge)
    unused := sortBy
      (compareLex (compareOn UnusedDeclaration.service) (compareOn UnusedDeclaration.dependency))
      ((declarations r).filter fun u => !isUsed statuses u.service u.dependency) }

end DeclarationReport
end ServiceMap
