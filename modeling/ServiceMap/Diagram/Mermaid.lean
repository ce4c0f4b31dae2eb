import ServiceMap.Diagram.Basic
import ServiceMap.Rendering

/-! The diagram as a Mermaid flowchart. A node is called after its place in the registry, since a
service may have any name. -/

namespace ServiceMap.Mermaid

open Writing

def style : Language → String
  | .typescript => "fill:#dbeafe,stroke:#1d4ed8"
  | .python => "fill:#fef9c3,stroke:#a16207"
  | .go => "fill:#cffafe,stroke:#0e7490"
  | .ruby => "fill:#fee2e2,stroke:#b91c1c"

def node? (r : Registry) (name : String) : Option String :=
  (r.services.findIdx? fun s => s.name = name).map fun i => s!"s{i}"

def nodeLabel (name : String) : String :=
  String.join (name.toList.map fun c => if c = '"' then "#quot;" else c.toString)

/-- The members of a group, with their nodes. -/
def nodes (r : Registry) (g : Group) : List (String × String) :=
  g.members.filterMap fun name => (node? r name).map fun n => (n, name)

def groupLines (r : Registry) (g : Group) : List String :=
  [s!"    subgraph lang_{g.language}[\"{g.language}\"]"] ++
    (nodes r g).map (fun (node, name) => s!"        {node}[\"{nodeLabel name}\"]") ++ ["    end"]

/-- An edge that is not declared is dashed. -/
def arrow (r : Registry) (e : Edge) : String :=
  if r.declares e.consumer e.provider then "-->" else "-.->"

/-- Nothing is drawn for an edge from a service to itself, or with an end that is not registered. -/
def edgeLine? (r : Registry) (e : Edge) : Option String :=
  if e.isLoop then none
  else
    match node? r e.consumer, node? r e.provider with
    | some a, some b => some s!"    {a} {arrow r e}|\"{e.label}\"| {b}"
    | _, _ => none

def styleLines (r : Registry) (g : Group) : List String := [
  s!"    classDef {g.language} {style g.language}",
  "    class " ++ ",".intercalate ((nodes r g).map (·.1)) ++ s!" {g.language}"]

def write (edges : List Edge) (r : Registry) : Writing Unit := do
  line "graph LR"
  r.groups.forM fun g => (groupLines r g).forM line
  edges.forM fun e => (edgeLine? r e).toList.forM line
  r.groups.forM fun g => (styleLines r g).forM line

/-- All lines of the diagram. -/
def rendering (edges : List Edge) (r : Registry) : Rendering :=
  .ofLines (["graph LR"] ++ r.groups.flatMap (groupLines r) ++ edges.filterMap (edgeLine? r) ++
    r.groups.flatMap (styleLines r))

end ServiceMap.Mermaid
