import ServiceMap.Diagram.Basic
import ServiceMap.Rendering

/-! The diagram in the DOT language, with one cluster for each language. -/

namespace ServiceMap.Dot

open Writing

def color : Language → String
  | .typescript => "lightblue"
  | .python => "lightyellow"
  | .go => "lightcyan"
  | .ruby => "lightcoral"

/-- Backslashes and quotes get a backslash in front. -/
def escaped (s : List Char) : List Char :=
  s.flatMap fun c => if c = '\\' || c = '"' then ['\\', c] else [c]

def quoted (name : String) : String := "\"" ++ String.ofList (escaped name.toList) ++ "\""

def groupLines (g : Group) : List String :=
  [s!"    subgraph cluster_{g.language} \x7b", s!"        label=\"{g.language}\";"] ++
    g.members.map (fun name => s!"        {quoted name} [fillcolor={color g.language}];") ++
    ["    \x7d"]

/-- An edge that is not declared is dashed and red. -/
def edgeLine (r : Registry) (e : Edge) : String :=
  let style := if r.declares e.consumer e.provider then "" else ", style=dashed, color=red"
  s!"    {quoted e.consumer} -> {quoted e.provider} [label=\"{e.label}\"{style}];"

def opening : List String :=
  ["digraph services \x7b", "    rankdir=LR;", "    node [shape=box, style=filled];", ""]

def write (edges : List Edge) (r : Registry) : Writing Unit := do
  opening.forM line
  r.groups.forM fun g => (groupLines g).forM line
  line ""
  (edges.filter (!·.isLoop)).forM fun e => line (edgeLine r e)
  line "\x7d"

/-- All lines of the diagram. -/
def rendering (edges : List Edge) (r : Registry) : Rendering :=
  .ofLines (opening ++ r.groups.flatMap groupLines ++ [""] ++
    (edges.filter (!·.isLoop)).map (edgeLine r) ++ ["\x7d"])

end ServiceMap.Dot
