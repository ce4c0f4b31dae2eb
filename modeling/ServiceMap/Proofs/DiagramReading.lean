import Mathlib.Data.List.Basic
import ServiceMap.Diagram.Dot
import ServiceMap.Diagram.Mermaid

/-! How a diagram is read back. The text is cut into lines at the line feeds that are not in quotes,
since a name may have line feeds; each line says one thing, and a line that says nothing known makes
the whole text unreadable. What the lines say adds up to a drawing. -/

namespace ServiceMap

open Text

/-- Where a reader stands. -/
inductive Quoting where
  | outside
  | inside
  /-- In quotes, behind a backslash. -/
  | escaped
  deriving DecidableEq

namespace Quoting

/-- Where the reader stands a character later. With `escapes` a backslash in quotes takes the next
character with it. -/
def next (escapes : Bool) : Quoting → Char → Quoting
  | outside, c => if c = '"' then inside else outside
  | inside, c => if c = '"' then outside else if escapes && c = '\\' then escaped else inside
  | escaped, _ => inside

/-- The text between the line feeds out of quotes. -/
def cut (escapes : Bool) : Quoting → List Char → List (List Char)
  | _, [] => [[]]
  | q, c :: s =>
    if q = outside ∧ c = '\n' then [] :: cut escapes outside s
    else growFirst c (cut escapes (q.next escapes c) s)

/-- Where the reader stands after a text that is not cut. -/
def after? (escapes : Bool) : Quoting → List Char → Option Quoting
  | q, [] => some q
  | q, c :: s => if q = outside ∧ c = '\n' then none else after? escapes (q.next escapes c) s

variable {escapes : Bool} {q q' : Quoting} {s t : List Char}

theorem after?_append : after? escapes q (s ++ t) =
    (after? escapes q s).bind fun q' => after? escapes q' t := by
  induction s generalizing q with
  | nil => rfl
  | cons c s ih =>
    rw [List.cons_append, after?, after?]
    split
    · rfl
    · exact ih

theorem after?_outside (free : ∀ c ∈ s, c ≠ '"' ∧ c ≠ '\n') :
    after? escapes outside s = some outside := by
  induction s with
  | nil => rfl
  | cons c s ih =>
    obtain ⟨⟨quote, feed⟩, free⟩ := List.forall_mem_cons.1 free
    rw [after?, if_neg fun cut => feed cut.2, next, if_neg quote, ih free]

theorem after?_inside (free : ∀ c ∈ s, c ≠ '"' ∧ (escapes = true → c ≠ '\\')) :
    after? escapes inside s = some inside := by
  induction s with
  | nil => rfl
  | cons c s ih =>
    obtain ⟨⟨quote, slash⟩, free⟩ := List.forall_mem_cons.1 free
    have stay : inside.next escapes c = inside := by
      rw [next, if_neg quote, if_neg]
      simpa using slash
    rw [after?, if_neg (by simp), stay, ih free]

theorem after?_intercalate {ps : List (List Char)}
    (whole : ∀ s ∈ ps, after? escapes outside s = some outside) :
    after? escapes outside ([','].intercalate ps) = some outside := by
  induction ps with
  | nil => rfl
  | cons s ps ih =>
    obtain ⟨first, whole⟩ := List.forall_mem_cons.1 whole
    cases ps with
    | nil => simpa using first
    | cons t ps =>
      rw [List.intercalate_cons_cons, List.append_assoc, after?_append, first, Option.bind_some,
        List.singleton_append]
      exact ih whole

theorem cut_append (h : after? escapes q s = some q') :
    cut escapes q (s ++ t) = s.foldr growFirst (cut escapes q' t) := by
  induction s generalizing q with
  | nil =>
    cases h
    rfl
  | cons c s ih =>
    rw [after?] at h
    split at h
    · cases h
    · next whole => rw [List.cons_append, cut, if_neg whole, ih h, List.foldr_cons]

theorem foldr_growFirst (s t : List Char) (ps : List (List Char)) :
    s.foldr growFirst (t :: ps) = (s ++ t) :: ps := by
  induction s with
  | nil => rfl
  | cons c s ih => rw [List.foldr_cons, ih, growFirst, List.cons_append]

/-- Lines that end out of quotes and are not cut themselves are found again. -/
theorem cut_lines {lines : List (List Char)}
    (whole : ∀ l ∈ lines, after? escapes outside l = some outside) :
    cut escapes outside (lines.flatMap fun l => l ++ ['\n']) = lines ++ [[]] := by
  induction lines with
  | nil => rfl
  | cons l lines ih =>
    obtain ⟨first, whole⟩ := List.forall_mem_cons.1 whole
    rw [List.flatMap_cons, List.append_assoc, cut_append first, List.singleton_append, cut,
      if_pos ⟨rfl, rfl⟩, ih whole, foldr_growFirst, List.append_nil, List.cons_append]

end Quoting

/-- The numeral in front of a text, and what follows it. -/
def readNumeral? (s : List Char) : Option (Nat × List Char) :=
  let digits := s.takeWhile Char.isDigit
  if digits = [] then none else some (Nat.ofDigitChars 10 digits 0, s.dropWhile Char.isDigit)

theorem isDigit_of_mem_toString {n : Nat} {c : Char} (h : c ∈ (toString n).toList) :
    c.isDigit = true := by
  rw [Nat.toString_eq_ofList_toDigits, String.toList_ofList] at h
  exact Nat.isDigit_of_mem_toDigits (by decide) (by decide) h

theorem readNumeral?_toString (n : Nat) {s : List Char} (ends : ∀ c ∈ s.head?, c.isDigit = false) :
    readNumeral? ((toString n).toList ++ s) = some (n, s) := by
  obtain ⟨digits, rest⟩ := takeWhile_dropWhile_append (s := (toString n).toList)
    (fun _ => isDigit_of_mem_toString) ends
  have numeral : (toString n).toList = Nat.toDigits 10 n := by
    rw [Nat.toString_eq_ofList_toDigits, String.toList_ofList]
  rw [readNumeral?, digits, rest, numeral, if_neg Nat.toDigits_ne_nil, Nat.ofDigitChars_ten_toDigits]

namespace Quoting

theorem after?_numeral_outside (escapes : Bool) (n : Nat) :
    after? escapes outside (toString n).toList = some outside := by
  refine after?_outside fun c hc => ⟨?_, ?_⟩ <;>
  · rintro rfl
    exact absurd (isDigit_of_mem_toString hc) (by decide)

theorem after?_numeral_inside (escapes : Bool) (n : Nat) :
    after? escapes inside (toString n).toList = some inside := by
  refine after?_inside fun c hc => ⟨?_, fun _ => ?_⟩ <;>
  · rintro rfl
    exact absurd (isDigit_of_mem_toString hc) (by decide)

end Quoting

/-- An edge as a diagram shows it. -/
structure Stroke where
  consumer : String
  provider : String
  count : Nat
  /-- Not dashed. -/
  declared : Bool
  deriving DecidableEq, Repr

def Stroke.ofEdge (r : Registry) (e : Edge) : Stroke :=
  ⟨e.consumer, e.provider, e.apis.size, r.declares e.consumer e.provider⟩

/-- What one line of a diagram says. -/
inductive Statement where
  | group (l : Language)
  | close
  | node (name : String)
  | stroke (s : Stroke)
  | silent
  deriving DecidableEq

/-- What a diagram shows: the services, each in the group of a language, and the edges in the order
in which they stand. -/
structure Drawing where
  nodes : List (Language × String)
  strokes : List Stroke

namespace Drawing

/-- The services by language, and the edges between two services. -/
def ofEdges (r : Registry) (edges : List Edge) : Drawing where
  nodes := r.groups.flatMap fun g => g.members.map fun name => (g.language, name)
  strokes := (edges.filter (!·.isLoop)).map (Stroke.ofEdge r)

/-- What has been read so far, and the group that is open. Groups do not nest, nodes stand in
groups and edges outside. -/
def step? : Option Language × Drawing → Statement → Option (Option Language × Drawing)
  | state, .silent => some state
  | (none, d), .group l => some (some l, d)
  | (some l, d), .node name => some (some l, { d with nodes := d.nodes ++ [(l, name)] })
  | (some _, d), .close => some (none, d)
  | (none, d), .stroke s => some (none, { d with strokes := d.strokes ++ [s] })
  | _, _ => none

def read? (statement? : List Char → Option Statement) :
    Option Language × Drawing → List (List Char) → Option (Option Language × Drawing)
  | state, [] => some state
  | state, l :: ls => do
    let s ← statement? l
    let state ← step? state s
    read? statement? state ls

/-- The drawing that a whole text shows. -/
def ofText? (escapes : Bool) (statement? : List Char → Option Statement) (text : String) :
    Option Drawing :=
  match read? statement? (none, ⟨[], []⟩) (Quoting.cut escapes .outside text.toList) with
  | some (none, d) => some d
  | _ => none

variable {statement? : List Char → Option Statement} {state : Option Language × Drawing} {d : Drawing}
variable {α : Type}

theorem read?_append (ls ms : List (List Char)) : read? statement? state (ls ++ ms) =
    (read? statement? state ls).bind fun state => read? statement? state ms := by
  induction ls generalizing state with
  | nil => rfl
  | cons l ls ih =>
    rw [List.cons_append, read?, read?]
    cases statement? l with
    | none => rfl
    | some s =>
      simp only [Option.bind_eq_bind, Option.bind_some]
      cases step? state s with
      | none => rfl
      | some state => exact ih

theorem read?_silent {ls : List (List Char)} (silent : ∀ l ∈ ls, statement? l = some .silent) :
    read? statement? state ls = some state := by
  induction ls with
  | nil => rfl
  | cons l ls ih =>
    obtain ⟨first, silent⟩ := List.forall_mem_cons.1 silent
    rw [read?, first]
    exact ih silent

theorem read?_nodes {l : Language} {line : α → List Char} {name : α → String} {members : List α}
    (means : ∀ a ∈ members, statement? (line a) = some (.node (name a))) :
    read? statement? (some l, d) (members.map line) =
      some (some l, { d with nodes := d.nodes ++ members.map fun a => (l, name a) }) := by
  induction members generalizing d with
  | nil => simp [read?]
  | cons a members ih =>
    obtain ⟨first, means⟩ := List.forall_mem_cons.1 means
    rw [List.map_cons, read?, first]
    refine (ih means).trans ?_
    simp

theorem read?_strokes {line : α → List Char} {stroke : α → Stroke} {edges : List α}
    (means : ∀ a ∈ edges, statement? (line a) = some (.stroke (stroke a))) :
    read? statement? (none, d) (edges.map line) =
      some (none, { d with strokes := d.strokes ++ edges.map stroke }) := by
  induction edges generalizing d with
  | nil => simp [read?]
  | cons a edges ih =>
    obtain ⟨first, means⟩ := List.forall_mem_cons.1 means
    rw [List.map_cons, read?, first]
    refine (ih means).trans ?_
    simp

/-- Groups that are read one by one are read one after the other. -/
theorem read?_groups {groups : List Group} {lines : Group → List (List Char)}
    (means : ∀ g ∈ groups, ∀ d, read? statement? (none, d) (lines g) =
      some (none, { d with nodes := d.nodes ++ g.members.map fun name => (g.language, name) })) :
    read? statement? (none, d) (groups.flatMap lines) = some (none, { d with
      nodes := d.nodes ++ groups.flatMap fun g => g.members.map fun name => (g.language, name) }) := by
  induction groups generalizing d with
  | nil => simp [read?]
  | cons g groups ih =>
    obtain ⟨first, means⟩ := List.forall_mem_cons.1 means
    rw [List.flatMap_cons, read?_append, first, Option.bind_some, ih means, List.flatMap_cons,
      List.append_assoc]

/-- The text of lines that are found again shows what the lines say. -/
theorem ofText?_ofLines {escapes : Bool} {lines : List String}
    (whole : ∀ l ∈ lines, Quoting.after? escapes .outside l.toList = some .outside)
    (empty : statement? [] = some .silent)
    (means : read? statement? (none, ⟨[], []⟩) (lines.map String.toList) = some (none, d)) :
    ofText? escapes statement? (Rendering.ofLines lines).text = some d := by
  have text : (Rendering.ofLines lines).text.toList =
      (lines.map String.toList).flatMap fun l => l ++ ['\n'] := by
    simp [Rendering.text, List.flatMap_map]
  have cut : Quoting.cut escapes .outside (Rendering.ofLines lines).text.toList =
      lines.map String.toList ++ [[]] := by
    rw [text]
    exact Quoting.cut_lines (List.forall_mem_map.2 whole)
  rw [ofText?, cut, read?_append, means, Option.bind_some, read?_silent (by simpa using empty)]

end Drawing

end ServiceMap
