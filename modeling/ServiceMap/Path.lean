import ServiceMap.Text.Split

/-! File paths. A path keeps the text in which it was written; two paths mean the same place when
their components agree, and it is by components that paths are compared, sorted and cut. -/

namespace ServiceMap

/-- A file path as it is written. -/
structure Path where
  text : String
  deriving DecidableEq, Repr, Inhabited

namespace Path

inductive Component where
  | root
  | here
  | up
  | name (label : String)
  deriving DecidableEq, Repr

namespace Component

/-- The root comes first, then the two dotted ones, then names. -/
def rank : Component → Nat
  | root => 0
  | here => 1
  | up => 2
  | name _ => 3

def label : Component → String
  | name s => s
  | _ => ""

instance : Ord Component := ⟨compareLex (compareOn rank) (compareOn label)⟩

instance : Std.TransOrd Component :=
  inferInstanceAs (Std.TransCmp (compareLex (compareOn rank) (compareOn label)))

/-- How a component is written. -/
def toText : Component → String
  | root => "/"
  | here => "."
  | up => ".."
  | name s => s

end Component

/-- A written path, taken apart: how it starts, and the pieces between slashes after that. -/
structure Parts where
  start : Option Component
  body : List (List Char)

/-- Pieces that name nothing: between two slashes, at the end, and a dot after the start. -/
def isIdle (piece : List Char) : Bool := piece = [] || piece = ['.']

def componentOf (piece : List Char) : Component :=
  if piece = ['.', '.'] then .up else .name (String.ofList piece)

namespace Parts

def ofPieces : List (List Char) → Parts
  | [] :: rest => if rest = [] then ⟨none, []⟩ else ⟨some .root, rest⟩
  | ['.'] :: rest => ⟨some .here, rest⟩
  | pieces => ⟨none, pieces⟩

def components (p : Parts) : List Component :=
  p.start.toList ++ (p.body.filter (!isIdle ·)).map componentOf

def text (p : Parts) : String :=
  let body := String.ofList (Text.joinWith '/' p.body)
  match p.start with
  | none => body
  | some .root => "/" ++ body
  | some c => if p.body = [] then c.toText else c.toText ++ "/" ++ body

/-- Without the idle pieces at the end. -/
def trimEnd (p : Parts) : Parts := { p with body := (p.body.reverse.dropWhile isIdle).reverse }

end Parts

def parts (p : Path) : Parts := Parts.ofPieces (Text.split '/' p.text.toList)

def components (p : Path) : List Component := p.parts.components

/-- By components, so that `a/b.ts` comes before `a-b.ts`. -/
instance : Ord Path := ⟨compareOn components⟩

instance : Std.TransOrd Path := inferInstanceAs (Std.TransCmp (compareOn components))

def isAbsolute (p : Path) : Bool := p.text.toList.head? = some '/'

/-- `p` as seen from `base`. An absolute `p` stands for itself. -/
def join (base p : Path) : Path :=
  if p.isAbsolute then p
  else if base.text.toList.getLast?.all (· = '/') then ⟨base.text ++ p.text⟩
  else ⟨base.text ++ "/" ++ p.text⟩

/-- Whether `root` is `p` or a directory above it. -/
def isUnder (p root : Path) : Bool := root.components.isPrefixOf p.components

/-- The pieces after the first `n` that name something. -/
def dropNamed : Nat → List (List Char) → List (List Char)
  | 0, body => body
  | _ + 1, [] => []
  | n + 1, piece :: body => if isIdle piece then dropNamed (n + 1) body else dropNamed n body

/-- What is left of `p` below `root`. -/
def relativeTo? (p root : Path) : Option Path :=
  if p.isUnder root then
    match root.components.length with
    | 0 => some ⟨p.parts.trimEnd.text⟩
    | n =>
      let below := dropNamed (n - p.parts.start.toList.length) p.parts.body
      some ⟨(Parts.trimEnd ⟨none, below.dropWhile isIdle⟩).text⟩
  else none

/-- `p` below `root`, or `p` itself when it is not there. -/
def relativeTo (p root : Path) : Path := (p.relativeTo? root).getD p

/-- The path without its last component. The root and the empty path have none. -/
def parent? (p : Path) : Option Path :=
  let whole := p.parts.trimEnd
  match whole.body, whole.start with
  | [], some .root => none
  | [], none => none
  | [], some _ => some ⟨""⟩
  | body, start => some ⟨(Parts.trimEnd ⟨start, body.dropLast⟩).text⟩

def fileName? (p : Path) : Option String :=
  match p.components.getLast? with
  | some (.name s) => some s
  | _ => none

/-- What follows the last dot of the file name, unless the name starts with that dot. -/
def extension? (p : Path) : Option String :=
  p.fileName?.bind fun name =>
    match Text.split '.' name.toList with
    | [_] => none
    | [[], _] => none
    | pieces => pieces.getLast?.map String.ofList

/-- The path that the components spell. -/
def ofComponents : List Component → Path
  | .root :: rest => ⟨"/" ++ "/".intercalate (rest.map Component.toText)⟩
  | cs => ⟨"/".intercalate (cs.map Component.toText)⟩

end Path
end ServiceMap
