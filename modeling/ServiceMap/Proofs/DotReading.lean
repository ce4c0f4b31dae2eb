import ServiceMap.Proofs.DiagramReading

/-! The DOT diagram read back: names as they stand in quotes, each backslash with the character that
it protects. What is written is read as the services and edges that it was written for. -/

namespace ServiceMap

namespace Dot

/-- The rest of a name in quotes, and what follows the quotes. -/
def readName? : List Char → Option (List Char × List Char)
  | [] => none
  | '"' :: s => some ([], s)
  | '\\' :: c :: s => (readName? s).map fun (name, s) => (c :: name, s)
  | c :: s => (readName? s).map fun (name, s) => (c :: name, s)

theorem escaped_cons_special {c : Char} (special : c = '\\' ∨ c = '"') (name : List Char) :
    escaped (c :: name) = '\\' :: c :: escaped name := by
  rw [escaped, List.flatMap_cons, if_pos (by simpa using special)]
  rfl

theorem escaped_cons_plain {c : Char} (plain : ¬(c = '\\' ∨ c = '"')) (name : List Char) :
    escaped (c :: name) = c :: escaped name := by
  rw [escaped, List.flatMap_cons, if_neg (by simpa using plain)]
  rfl

theorem readName?_escaped (name s : List Char) :
    readName? (escaped name ++ '"' :: s) = some (name, s) := by
  induction name with
  | nil => rfl
  | cons c name ih =>
    by_cases special : c = '\\' ∨ c = '"'
    · simp [escaped_cons_special special, readName?, ih]
    · obtain ⟨slash, quote⟩ := not_or.1 special
      simp [escaped_cons_plain special, readName?, ih, slash]

def node? (line : List Char) : Option Statement := do
  let line ← line.dropPrefix? "        \"".toList
  let (name, line) ← readName? line
  if Language.all.any fun l => line = s!" [fillcolor={color l}];".toList then
    some (.node (String.ofList name))
  else none

/-- What follows the number of APIs on an edge. -/
def ending (declared : Bool) : List Char :=
  if declared then " APIs\"];".toList else " APIs\", style=dashed, color=red];".toList

def stroke? (line : List Char) : Option Statement := do
  let line ← line.dropPrefix? "    \"".toList
  let (consumer, line) ← readName? line
  let line ← line.dropPrefix? " -> \"".toList
  let (provider, line) ← readName? line
  let line ← line.dropPrefix? " [label=\"".toList
  let (count, line) ← readNumeral? line
  let stroke := Stroke.mk (String.ofList consumer) (String.ofList provider) count
  if line = ending true then some (.stroke (stroke true))
  else if line = ending false then some (.stroke (stroke false))
  else none

/-- The lines that hold no name. -/
def fixed? (line : List Char) : Option Statement :=
  if line = "    \x7d".toList then some .close
  else
    match Language.all.find? fun l => line = s!"    subgraph cluster_{l} \x7b".toList with
    | some l => some (.group l)
    | none =>
      if (opening ++ ["\x7d", ""] ++ Language.all.map fun l => s!"        label=\"{l}\";").any fun l =>
        line = l.toList then some .silent
      else none

def statement? (line : List Char) : Option Statement := node? line <|> stroke? line <|> fixed? line

/-- The drawing that a text in the DOT language shows. -/
def drawing? (text : String) : Option Drawing := Drawing.ofText? true statement? text

theorem after?_name (name s : List Char) :
    Quoting.after? true .inside (escaped name ++ '"' :: s) = Quoting.after? true .outside s := by
  induction name with
  | nil => rfl
  | cons c name ih =>
    by_cases special : c = '\\' ∨ c = '"'
    · rcases special with rfl | rfl <;>
        simp [escaped_cons_special, Quoting.after?, Quoting.next, ih]
    · obtain ⟨slash, quote⟩ := not_or.1 special
      simp [escaped_cons_plain special, Quoting.after?, Quoting.next, ih, slash, quote]

theorem toList_nodeLine (l : Language) (name : String) :
    (s!"        {quoted name} [fillcolor={color l}];").toList =
      "        \"".toList ++ (escaped name.toList ++ '"' :: s!" [fillcolor={color l}];".toList) := by
  simp [quoted, toString]

theorem toList_edgeLine (r : Registry) (e : Edge) : (edgeLine r e).toList =
    "    \"".toList ++ (escaped e.consumer.toList ++ '"' ::
      (" -> \"".toList ++ (escaped e.provider.toList ++ '"' ::
        (" [label=\"".toList ++ ((toString e.apis.size).toList ++
          ending (r.declares e.consumer e.provider)))))) := by
  cases declared : r.declares e.consumer e.provider <;>
    simp [edgeLine, quoted, declared, Edge.label, toString, ending]

theorem statement?_node (l : Language) (name : String) :
    statement? (s!"        {quoted name} [fillcolor={color l}];").toList = some (.node name) := by
  have colored : (Language.all.any fun k =>
      s!" [fillcolor={color l}];".toList = s!" [fillcolor={color k}];".toList) = true :=
    List.any_eq_true.2 ⟨l, l.mem_all, decide_eq_true rfl⟩
  rw [toList_nodeLine, statement?, node?, List.dropPrefix?_append_of_beq _ (beq_self_eq_true _)]
  simp only [Option.bind_eq_bind, Option.bind_some, readName?_escaped, colored, if_true,
    String.ofList_toList]
  rfl

theorem statement?_stroke (r : Registry) (e : Edge) :
    statement? (edgeLine r e).toList = some (.stroke (.ofEdge r e)) := by
  have other : ∀ s, node? ("    \"".toList ++ s) = none := by
    intro s
    simp [node?, List.dropPrefix?]
  have ends : ∀ declared, ∀ c ∈ (ending declared).head?, c.isDigit = false := by
    intro declared
    cases declared <;> simp [ending]
  rw [toList_edgeLine, statement?, other, stroke?,
    List.dropPrefix?_append_of_beq _ (beq_self_eq_true _)]
  simp only [Option.bind_eq_bind, Option.bind_some, readName?_escaped,
    List.dropPrefix?_append_of_beq _ (beq_self_eq_true _), readNumeral?_toString _ (ends _),
    String.ofList_toList, Stroke.ofEdge]
  cases r.declares e.consumer e.provider <;> rfl

theorem statement?_fixed (l : Language) :
    statement? (s!"    subgraph cluster_{l} \x7b").toList = some (.group l) ∧
      statement? (s!"        label=\"{l}\";").toList = some .silent := by
  cases l <;> exact ⟨rfl, rfl⟩

theorem read?_group (g : Group) (d : Drawing) :
    Drawing.read? statement? (none, d) ((groupLines g).map String.toList) =
      some (none, { d with nodes := d.nodes ++ g.members.map fun name => (g.language, name) }) := by
  obtain ⟨start, label⟩ := statement?_fixed g.language
  have first : Drawing.read? statement? (none, d) ([s!"    subgraph cluster_{g.language} \x7b",
      s!"        label=\"{g.language}\";"].map String.toList) = some (some g.language, d) := by
    rw [List.map_cons, List.map_cons, Drawing.read?, start]
    exact Drawing.read?_silent (by simpa using label)
  have nodes : Drawing.read? statement? (some g.language, d) ((g.members.map fun name =>
      s!"        {quoted name} [fillcolor={color g.language}];").map String.toList) =
      some (some g.language,
        { d with nodes := d.nodes ++ g.members.map fun name => (g.language, name) }) := by
    rw [List.map_map]
    exact Drawing.read?_nodes fun name _ => statement?_node g.language name
  have last : ∀ d, Drawing.read? statement? (some g.language, d) (["    \x7d"].map String.toList) =
      some (none, d) := fun _ => rfl
  rw [groupLines, List.map_append, List.map_append, Drawing.read?_append, Drawing.read?_append, first,
    Option.bind_some, nodes, Option.bind_some, last]

theorem after?_node (l : Language) (name : String) : Quoting.after? true .outside
    (s!"        {quoted name} [fillcolor={color l}];").toList = some .outside := by
  have start : Quoting.after? true .outside "        \"".toList = some .inside := rfl
  rw [toList_nodeLine, Quoting.after?_append, start, Option.bind_some, after?_name]
  cases l <;> rfl

theorem after?_stroke (r : Registry) (e : Edge) :
    Quoting.after? true .outside (edgeLine r e).toList = some .outside := by
  have start : Quoting.after? true .outside "    \"".toList = some .inside := rfl
  have arrow : Quoting.after? true .outside " -> \"".toList = some .inside := rfl
  have label : Quoting.after? true .outside " [label=\"".toList = some .inside := rfl
  have last : ∀ declared, Quoting.after? true .inside (ending declared) = some .outside := by decide
  rw [toList_edgeLine, Quoting.after?_append, start, Option.bind_some, after?_name,
    Quoting.after?_append, arrow, Option.bind_some, after?_name, Quoting.after?_append, label,
    Option.bind_some, Quoting.after?_append, Quoting.after?_numeral_inside, Option.bind_some, last]

theorem after?_group (g : Group) {line : String} (h : line ∈ groupLines g) :
    Quoting.after? true .outside line.toList = some .outside := by
  simp only [groupLines, List.mem_append, List.mem_cons, List.not_mem_nil, or_false, List.mem_map] at h
  rcases h with ((rfl | rfl) | ⟨name, -, rfl⟩) | rfl
  · cases g.language <;> rfl
  · cases g.language <;> rfl
  · exact after?_node g.language name
  · rfl

theorem drawing?_rendering (edges : List Edge) (r : Registry) :
    drawing? (rendering edges r).text = some (.ofEdges r edges) := by
  rw [drawing?, rendering]
  apply Drawing.ofText?_ofLines
  · intro line hline
    simp only [List.mem_append, List.mem_flatMap, List.mem_singleton] at hline
    rcases hline with (((hline | ⟨g, -, hline⟩) | rfl) | hline) | rfl
    · have fixed : ∀ line ∈ opening, Quoting.after? true .outside line.toList = some .outside := by
        decide
      exact fixed line hline
    · exact after?_group g hline
    · rfl
    · obtain ⟨e, -, rfl⟩ := List.mem_map.1 hline
      exact after?_stroke r e
    · rfl
  · rfl
  · have head : ∀ state, Drawing.read? statement? state (opening.map String.toList) = some state :=
      fun _ => Drawing.read?_silent (by decide)
    have groups : Drawing.read? statement? (none, ⟨[], []⟩)
        ((r.groups.flatMap groupLines).map String.toList) =
          some (none, ⟨r.groups.flatMap fun g => g.members.map fun name => (g.language, name), []⟩) := by
      rw [List.map_flatMap]
      exact Drawing.read?_groups fun g _ d => read?_group g d
    have blank : ∀ state, Drawing.read? statement? state ([""].map String.toList) = some state :=
      fun _ => rfl
    have strokes : ∀ d, Drawing.read? statement? (none, d)
        (((edges.filter (!·.isLoop)).map (edgeLine r)).map String.toList) =
          some (none, { d with
            strokes := d.strokes ++ (edges.filter (!·.isLoop)).map (Stroke.ofEdge r) }) := by
      intro d
      rw [List.map_map]
      exact Drawing.read?_strokes fun e _ => statement?_stroke r e
    have last : ∀ state, Drawing.read? statement? state (["\x7d"].map String.toList) = some state :=
      fun _ => rfl
    simp only [List.map_append, Drawing.read?_append, head, groups, blank, strokes, last,
      Option.bind_some, List.nil_append, Drawing.ofEdges]

end Dot

end ServiceMap
