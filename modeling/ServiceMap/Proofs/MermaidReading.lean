import ServiceMap.Proofs.DiagramReading

/-! The Mermaid flowchart read back, with the ids of its nodes as places in the registry. What is
written is read as the services and edges that it was written for, when the edges lead from and to
registered services. -/

namespace ServiceMap

theorem filterMap_eq_map_filter {α β : Type} {f : α → Option β} {g : α → β} {p : α → Bool} {l : List α}
    (h : ∀ a ∈ l, f a = if p a then some (g a) else none) : l.filterMap f = (l.filter p).map g := by
  induction l with
  | nil => rfl
  | cons a l ih =>
    obtain ⟨first, h⟩ := List.forall_mem_cons.1 h
    rw [List.filterMap_cons, first, ih h]
    cases pass : p a <;> simp [pass]

theorem Registry.name_of_mem_groups {r : Registry} {g : Group}
    (hg : g ∈ r.groups) {name : String} (h : name ∈ g.members) :
    name ∈ r.services.map Service.name := by
  obtain ⟨l, -, rfl⟩ := List.mem_map.1 (List.mem_filter.1 hg).1
  obtain ⟨s, hs, rfl⟩ := List.mem_map.1 (mem_sortBy.1 h)
  exact List.mem_map_of_mem (List.mem_filter.1 hs).1

namespace Mermaid

/-- How an id is written. -/
def nodeId (id : Nat) : String := s!"s{id}"

/-- The name of the service that an id stands for. -/
def nameOf? (r : Registry) (id : Nat) : Option String := (r.services[id]?).map Service.name

/-- A node is labelled with the name of the service that its id stands for. -/
def readNode? (r : Registry) (line : List Char) : Option Statement := do
  let line ← line.dropPrefix? "        s".toList
  let (id, line) ← readNumeral? line
  let line ← line.dropPrefix? "[\"".toList
  let name ← nameOf? r id
  if line = (nodeLabel name).toList ++ "\"]".toList then some (.node name) else none

def readArrow? (line : List Char) : Option (Bool × List Char) :=
  (line.dropPrefix? " -->|\"".toList).map (true, ·) <|>
    (line.dropPrefix? " -.->|\"".toList).map (false, ·)

def readStroke? (r : Registry) (line : List Char) : Option Statement := do
  let line ← line.dropPrefix? "    s".toList
  let (first, line) ← readNumeral? line
  let (declared, line) ← readArrow? line
  let (count, line) ← readNumeral? line
  let line ← line.dropPrefix? " APIs\"| s".toList
  let (second, line) ← readNumeral? line
  let consumer ← nameOf? r first
  let provider ← nameOf? r second
  if line = [] then some (.stroke ⟨consumer, provider, count, declared⟩) else none

/-- The lines that hold no id, or only ids to be styled. -/
def fixed? (line : List Char) : Option Statement :=
  if line = "    end".toList then some .close
  else
    match Language.all.find? fun l => line = s!"    subgraph lang_{l}[\"{l}\"]".toList with
    | some l => some (.group l)
    | none =>
      if line = "graph LR".toList || line = [] || (line.dropPrefix? "    class".toList).isSome then
        some .silent
      else none

def statement? (r : Registry) (line : List Char) : Option Statement :=
  readNode? r line <|> readStroke? r line <|> fixed? line

/-- The drawing that a Mermaid flowchart shows. Ids are read as places in the registry. -/
def drawing? (r : Registry) (text : String) : Option Drawing :=
  Drawing.ofText? false (statement? r) text

theorem node?_eq_some {r : Registry} {name node : String} (h : node? r name = some node) :
    ∃ id, node = nodeId id ∧ nameOf? r id = some name := by
  obtain ⟨id, found, rfl⟩ := Option.map_eq_some_iff.1 h
  obtain ⟨bound, same, -⟩ := List.findIdx?_eq_some_iff_getElem.1 found
  refine ⟨id, rfl, ?_⟩
  rw [nameOf?, List.getElem?_eq_getElem bound, Option.map_some]
  exact congrArg some (by simpa using same)

theorem exists_node? {r : Registry} {name : String} (h : name ∈ r.services.map Service.name) :
    ∃ id, node? r name = some (nodeId id) ∧ nameOf? r id = some name := by
  cases found : node? r name with
  | some node =>
    obtain ⟨id, rfl, names⟩ := node?_eq_some found
    exact ⟨id, rfl, names⟩
  | none =>
    obtain ⟨s, hs, rfl⟩ := List.mem_map.1 h
    have none := List.findIdx?_eq_none_iff.1 (Option.map_eq_none_iff.1 found) s hs
    simp at none

theorem quote_not_mem_nodeLabel (name : String) : '"' ∉ (nodeLabel name).toList := by
  rw [nodeLabel, String.toList_join, List.flatMap_map]
  intro mem
  obtain ⟨c, -, hc⟩ := List.mem_flatMap.1 mem
  by_cases quote : c = '"'
  · rw [if_pos quote] at hc
    exact absurd hc (by decide)
  · rw [if_neg quote, Char.toString_eq_singleton, String.toList_singleton] at hc
    exact quote (List.mem_singleton.1 hc).symm

theorem toList_nodeLine (id : Nat) (name : String) :
    (s!"        {nodeId id}[\"{nodeLabel name}\"]").toList =
      "        s".toList ++ ((toString id).toList ++ ("[\"".toList ++
        ((nodeLabel name).toList ++ "\"]".toList))) := by
  simp [nodeId, toString]

/-- How the arrow of an edge and the quote behind it are written. -/
def arrowText (declared : Bool) : List Char :=
  if declared then " -->|\"".toList else " -.->|\"".toList

theorem toList_edgeLine (r : Registry) (e : Edge) (a b : Nat) :
    (s!"    {nodeId a} {arrow r e}|\"{e.label}\"| {nodeId b}").toList =
      "    s".toList ++ ((toString a).toList ++ (arrowText (r.declares e.consumer e.provider) ++
        ((toString e.apis.size).toList ++ (" APIs\"| s".toList ++ (toString b).toList)))) := by
  cases declared : r.declares e.consumer e.provider <;>
    simp [arrow, arrowText, declared, Edge.label, nodeId, toString]

theorem statement?_node {r : Registry} {id : Nat} {name : String} (names : nameOf? r id = some name) :
    statement? r (s!"        {nodeId id}[\"{nodeLabel name}\"]").toList = some (.node name) := by
  have ends : ∀ s, ∀ c ∈ ("[\"".toList ++ s).head?, c.isDigit = false := by simp
  rw [toList_nodeLine, statement?, readNode?, List.dropPrefix?_append_of_beq _ (beq_self_eq_true _)]
  simp only [Option.bind_eq_bind, Option.bind_some, readNumeral?_toString _ (ends _),
    List.dropPrefix?_append_of_beq _ (beq_self_eq_true _), names, if_true]
  rfl

theorem readArrow?_arrowText (declared : Bool) (s : List Char) :
    readArrow? (arrowText declared ++ s) = some (declared, s) := by
  cases declared <;> simp [readArrow?, arrowText, List.dropPrefix?]

theorem statement?_stroke {r : Registry} {e : Edge} {a b : Nat}
    (consumer : nameOf? r a = some e.consumer) (provider : nameOf? r b = some e.provider) :
    statement? r (s!"    {nodeId a} {arrow r e}|\"{e.label}\"| {nodeId b}").toList =
      some (.stroke (.ofEdge r e)) := by
  have other : ∀ s, readNode? r ("    s".toList ++ s) = none := by
    intro s
    simp [readNode?, List.dropPrefix?]
  have arrowEnds : ∀ declared s, ∀ c ∈ (arrowText declared ++ s).head?, c.isDigit = false := by
    intro declared s
    cases declared <;> simp [arrowText]
  have labelEnds : ∀ s, ∀ c ∈ (" APIs\"| s".toList ++ s).head?, c.isDigit = false := by simp
  have last : readNumeral? (toString b).toList = some (b, []) := by
    simpa using readNumeral?_toString b (s := []) (by simp)
  rw [toList_edgeLine, statement?, other, readStroke?,
    List.dropPrefix?_append_of_beq _ (beq_self_eq_true _)]
  simp only [Option.bind_eq_bind, Option.bind_some, readNumeral?_toString _ (arrowEnds _ _),
    readArrow?_arrowText, readNumeral?_toString _ (labelEnds _), last, consumer, provider,
    List.dropPrefix?_append_of_beq _ (beq_self_eq_true _)]
  rfl

theorem statement?_class (r : Registry) (s : List Char) :
    statement? r ("    class".toList ++ s) = some .silent := by
  have node : readNode? r ("    class".toList ++ s) = none := by simp [readNode?, List.dropPrefix?]
  have stroke : readStroke? r ("    class".toList ++ s) = none := by
    simp [readStroke?, List.dropPrefix?]
  have group : (Language.all.find? fun l =>
      "    class".toList ++ s = s!"    subgraph lang_{l}[\"{l}\"]".toList) = none := by
    refine List.find?_eq_none.2 fun l _ => ?_
    simp [toString]
  have close : "    class".toList ++ s ≠ "    end".toList := by simp
  rw [statement?, node, stroke, fixed?, if_neg close, group,
    List.dropPrefix?_append_of_beq _ (beq_self_eq_true _)]
  simp

theorem statement?_style {r : Registry} {g : Group} {line : String} (h : line ∈ styleLines r g) :
    statement? r line.toList = some .silent := by
  have start : ∃ s, line.toList = "    class".toList ++ s := by
    simp only [styleLines, List.mem_cons, List.not_mem_nil, or_false] at h
    rcases h with rfl | rfl
    · exact ⟨s!"Def {g.language} {style g.language}".toList, by simp [toString]⟩
    · exact ⟨' ' :: (",".intercalate ((nodes r g).map (·.1)) ++ s!" {g.language}").toList, by simp⟩
  obtain ⟨s, text⟩ := start
  rw [text, statement?_class]

theorem nodes_spec {r : Registry} {g : Group} {p : String × String} (h : p ∈ nodes r g) :
    ∃ id, p.1 = nodeId id ∧ nameOf? r id = some p.2 := by
  obtain ⟨name, -, made⟩ := List.mem_filterMap.1 h
  obtain ⟨node, found, rfl⟩ := Option.map_eq_some_iff.1 made
  exact node?_eq_some found

theorem nodes_names {r : Registry} {g : Group}
    (registered : ∀ name ∈ g.members, name ∈ r.services.map Service.name) :
    (nodes r g).map Prod.snd = g.members := by
  rw [nodes, List.map_filterMap]
  conv => rhs; rw [← List.map_id g.members]
  refine List.filterMap_eq_map_iff_forall_eq_some.2 fun name hname => ?_
  obtain ⟨id, found, -⟩ := exists_node? (registered name hname)
  simp [found]

theorem read?_group {r : Registry} {g : Group}
    (registered : ∀ name ∈ g.members, name ∈ r.services.map Service.name) (d : Drawing) :
    Drawing.read? (statement? r) (none, d) ((groupLines r g).map String.toList) =
      some (none, { d with nodes := d.nodes ++ g.members.map fun name => (g.language, name) }) := by
  have first : Drawing.read? (statement? r) (none, d)
      ([s!"    subgraph lang_{g.language}[\"{g.language}\"]"].map String.toList) =
        some (some g.language, d) := by
    cases g.language <;> rfl
  have members : Drawing.read? (statement? r) (some g.language, d)
      (((nodes r g).map fun p => s!"        {p.1}[\"{nodeLabel p.2}\"]").map String.toList) =
      some (some g.language,
        { d with nodes := d.nodes ++ g.members.map fun name => (g.language, name) }) := by
    conv => rhs; rw [← nodes_names registered, List.map_map]
    rw [List.map_map]
    refine Drawing.read?_nodes fun p hp => ?_
    obtain ⟨id, node, names⟩ := nodes_spec hp
    rw [← statement?_node names, ← node]
    rfl
  have last : ∀ d, Drawing.read? (statement? r) (some g.language, d) (["    end"].map String.toList) =
      some (none, d) := fun _ => rfl
  have lines : groupLines r g = [s!"    subgraph lang_{g.language}[\"{g.language}\"]"] ++
      (nodes r g).map (fun p => s!"        {p.1}[\"{nodeLabel p.2}\"]") ++ ["    end"] := rfl
  rw [lines, List.map_append, List.map_append, Drawing.read?_append, Drawing.read?_append, first,
    Option.bind_some, members, Option.bind_some, last]

theorem after?_node (id : Nat) : Quoting.after? false .outside (nodeId id).toList = some .outside := by
  have text : (nodeId id).toList = ['s'] ++ (toString id).toList := by simp [nodeId, toString]
  rw [text, Quoting.after?_append]
  exact Quoting.after?_numeral_outside false id

theorem after?_group {r : Registry} {g : Group} {line : String} (h : line ∈ groupLines r g) :
    Quoting.after? false .outside line.toList = some .outside := by
  simp only [groupLines, List.mem_append, List.mem_cons, List.not_mem_nil, or_false, List.mem_map] at h
  rcases h with (rfl | ⟨p, hp, rfl⟩) | rfl
  · cases g.language <;> rfl
  · obtain ⟨id, node, -⟩ := nodes_spec hp
    have start : Quoting.after? false .outside "        s".toList = some .outside := rfl
    have opens : Quoting.after? false .outside "[\"".toList = some .inside := rfl
    have label : Quoting.after? false .inside (nodeLabel p.2).toList = some .inside :=
      Quoting.after?_inside fun c hc =>
        ⟨fun quote => quote_not_mem_nodeLabel p.2 (quote ▸ hc), by simp⟩
    rw [node, toList_nodeLine, Quoting.after?_append, start, Option.bind_some, Quoting.after?_append,
      Quoting.after?_numeral_outside, Option.bind_some, Quoting.after?_append, opens, Option.bind_some,
      Quoting.after?_append, label, Option.bind_some]
    rfl
  · rfl

theorem after?_style {r : Registry} {g : Group} {line : String} (h : line ∈ styleLines r g) :
    Quoting.after? false .outside line.toList = some .outside := by
  simp only [styleLines, List.mem_cons, List.not_mem_nil, or_false] at h
  rcases h with rfl | rfl
  · cases g.language <;> rfl
  · have ids : Quoting.after? false .outside (",".intercalate ((nodes r g).map (·.1))).toList =
        some .outside := by
      rw [String.toList_intercalate, List.map_map]
      refine Quoting.after?_intercalate fun s hs => ?_
      obtain ⟨p, hp, rfl⟩ := List.mem_map.1 hs
      obtain ⟨id, node, -⟩ := nodes_spec hp
      exact (congrArg _ (congrArg String.toList node)).trans (after?_node id)
    have start : Quoting.after? false .outside "    class ".toList = some .outside := rfl
    rw [String.toList_append, String.toList_append, Quoting.after?_append, Quoting.after?_append, start,
      Option.bind_some, ids, Option.bind_some]
    cases g.language <;> rfl

theorem after?_stroke (r : Registry) (e : Edge) (a b : Nat) : Quoting.after? false .outside
    (s!"    {nodeId a} {arrow r e}|\"{e.label}\"| {nodeId b}").toList = some .outside := by
  have start : Quoting.after? false .outside "    s".toList = some .outside := rfl
  have opens : ∀ declared, Quoting.after? false .outside (arrowText declared) = some .inside := by
    decide
  have closes : Quoting.after? false .inside " APIs\"| s".toList = some .outside := rfl
  rw [toList_edgeLine, Quoting.after?_append, start, Option.bind_some, Quoting.after?_append,
    Quoting.after?_numeral_outside, Option.bind_some, Quoting.after?_append, opens, Option.bind_some,
    Quoting.after?_append, Quoting.after?_numeral_inside, Option.bind_some, Quoting.after?_append, closes,
    Option.bind_some, Quoting.after?_numeral_outside]

/-- Every edge between two registered services has its line. -/
theorem edgeLine?_spec {r : Registry} {e : Edge} (other : e.isLoop = false)
    (consumer : e.consumer ∈ r.services.map Service.name)
    (provider : e.provider ∈ r.services.map Service.name) :
    ∃ line, edgeLine? r e = some line ∧ Quoting.after? false .outside line.toList = some .outside ∧
      statement? r line.toList = some (.stroke (.ofEdge r e)) := by
  obtain ⟨a, consumerNode, consumerName⟩ := exists_node? consumer
  obtain ⟨b, providerNode, providerName⟩ := exists_node? provider
  refine ⟨_, ?_, after?_stroke r e a b, statement?_stroke consumerName providerName⟩
  rw [edgeLine?, other, if_neg Bool.false_ne_true, consumerNode, providerNode]

theorem drawing?_rendering {r : Registry} {edges : List Edge}
    (registered : ∀ e ∈ edges, e.consumer ∈ r.services.map Service.name ∧
      e.provider ∈ r.services.map Service.name) :
    drawing? r (rendering edges r).text = some (.ofEdges r edges) := by
  have drawn : edges.filterMap (edgeLine? r) =
      (edges.filter (!·.isLoop)).map fun e => (edgeLine? r e).getD "" := by
    refine filterMap_eq_map_filter fun e he => ?_
    cases other : e.isLoop with
    | true => simp [edgeLine?, other]
    | false =>
      obtain ⟨line, written, -⟩ := edgeLine?_spec other (registered e he).1 (registered e he).2
      simp [written]
  have line : ∀ e ∈ edges.filter (!·.isLoop),
      Quoting.after? false .outside ((edgeLine? r e).getD "").toList = some .outside ∧
        statement? r ((edgeLine? r e).getD "").toList = some (.stroke (.ofEdge r e)) := by
    intro e he
    obtain ⟨mem, other⟩ := List.mem_filter.1 he
    obtain ⟨line, written, whole, means⟩ :=
      edgeLine?_spec (by simpa using other) (registered e mem).1 (registered e mem).2
    rw [written]
    exact ⟨whole, means⟩
  rw [drawing?, rendering, drawn]
  apply Drawing.ofText?_ofLines
  · intro l hl
    simp only [List.mem_append, List.mem_flatMap, List.mem_singleton] at hl
    rcases hl with ((rfl | ⟨g, -, hl⟩) | hl) | ⟨g, -, hl⟩
    · rfl
    · exact after?_group hl
    · obtain ⟨e, he, rfl⟩ := List.mem_map.1 hl
      exact (line e he).1
    · exact after?_style hl
  · rfl
  · have head : ∀ state, Drawing.read? (statement? r) state (["graph LR"].map String.toList) =
        some state := fun _ => rfl
    have groups : Drawing.read? (statement? r) (none, ⟨[], []⟩)
        ((r.groups.flatMap (groupLines r)).map String.toList) =
          some (none, ⟨r.groups.flatMap fun g => g.members.map fun name => (g.language, name), []⟩) := by
      rw [List.map_flatMap]
      exact Drawing.read?_groups fun g hg d => read?_group (fun _ => Registry.name_of_mem_groups hg) d
    have strokes : ∀ d, Drawing.read? (statement? r) (none, d)
        (((edges.filter (!·.isLoop)).map fun e => (edgeLine? r e).getD "").map String.toList) =
          some (none, { d with
            strokes := d.strokes ++ (edges.filter (!·.isLoop)).map (Stroke.ofEdge r) }) := by
      intro d
      rw [List.map_map]
      exact Drawing.read?_strokes fun e he => (line e he).2
    have last : ∀ state, Drawing.read? (statement? r) state
        ((r.groups.flatMap (styleLines r)).map String.toList) = some state := by
      intro state
      refine Drawing.read?_silent fun l hl => ?_
      obtain ⟨line, hline, rfl⟩ := List.mem_map.1 hl
      obtain ⟨g, -, hg⟩ := List.mem_flatMap.1 hline
      exact statement?_style hg
    simp only [List.map_append, Drawing.read?_append, head, groups, strokes, last, Option.bind_some,
      List.nil_append, Drawing.ofEdges]

end Mermaid

end ServiceMap
