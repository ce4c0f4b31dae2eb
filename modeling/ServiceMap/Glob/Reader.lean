import ServiceMap.Glob.Token

/-! How a glob is read from its pattern. -/

namespace ServiceMap.Glob

/-- A group of alternatives that is still open: its branches so far, the last one first, and the
tokens that stood before it, the last one first. -/
structure OpenGroup where
  branches : List (List Token)
  outer : List Token

/-- The state between two characters of a pattern: the tokens of the current branch, the last one
first, the open groups, the innermost first, and whether a bracket has turned out to stand for
itself, after which all do. -/
structure Reading where
  tokens : List Token
  groups : List OpenGroup
  loneBracket : Bool

namespace Reading

def start : Reading := ⟨[], [], false⟩

def push (r : Reading) (t : Token) : Reading := { r with tokens := t :: r.tokens }

def openGroup (r : Reading) : Reading :=
  { r with tokens := [], groups := ⟨[], r.tokens⟩ :: r.groups }

def closeGroup (r : Reading) : Except Fault Reading :=
  match r.groups with
  | [] => .error .unopenedGroup
  | g :: groups =>
    let branches := (r.tokens :: g.branches).reverse.map List.reverse
    .ok { r with tokens := .choice branches :: g.outer, groups }

/-- A comma parts the branches of a group and stands for itself elsewhere. -/
def comma (r : Reading) : Reading :=
  match r.groups with
  | [] => r.push (.literal ',')
  | g :: groups =>
    { r with tokens := [], groups := { g with branches := r.tokens :: g.branches } :: groups }

/-- Directories in the middle or at the end take the place of the slash before them. -/
def pushDirs (r : Reading) (t : Token) : Reading :=
  match r.tokens with
  | .leadingDirs :: _ => r
  | .allBelow :: _ => r
  | _ :: before => { r with tokens := t :: before }
  | [] => r.push t

/-- Two stars in a row, with the character before them and what follows. They span directories only
as a component of their own; elsewhere each is a star. -/
def twoStars (r : Reading) (before : Option Char) (rest : List Char) : Reading × List Char :=
  if r.tokens.isEmpty then
    match rest with
    | [] => (r.push .leadingDirs, [])
    | '/' :: rest => (r.push .leadingDirs, rest)
    | rest => ((r.push .star).push .star, rest)
  else
    let grouped := !r.groups.isEmpty
    if before = some '/' || (grouped && (before = some ',' || before = some '\x7b')) then
      match rest with
      | [] => (r.pushDirs .allBelow, [])
      | '/' :: rest => (r.pushDirs .innerDirs, rest)
      | c :: rest =>
        if grouped && (c = ',' || c = '\x7d') then (r.pushDirs .allBelow, c :: rest)
        else ((r.push .star).push .star, c :: rest)
    else ((r.push .star).push .star, rest)

end Reading

/-- The members of a class up to its closing bracket, given those so far, the last one first;
nothing when it is not closed. A bracket at the first place and a dash at either end are members. -/
def classMembers : List Char → Bool → Bool → List (Char × Char) →
    Except Fault (Option (List (Char × Char) × List Char))
  | [], _, _, _ => .ok none
  | ']' :: rest, false, inRange, ms =>
    .ok (some ((if inRange then ('-', '-') :: ms else ms).reverse, rest))
  | c :: rest, first, inRange, ms =>
    if c = '-' && !first && !inRange then classMembers rest false true ms
    else if c ≠ '-' && inRange || c = '-' && !first then
      match ms with
      | [] => classMembers rest false false [(c, c)]
      | (a, _) :: before =>
        if c.toNat < a.toNat then .error (.invalidRange a c)
        else classMembers rest false false ((a, c) :: before)
    else classMembers rest false false ((c, c) :: ms)

/-- A class after its opening bracket. -/
def readClass (s : List Char) : Except Fault (Option (Token × List Char)) :=
  let (negated, s) := match s with
    | '!' :: r => (true, r)
    | '^' :: r => (true, r)
    | s => (false, s)
  (classMembers s true false []).map fun found =>
    found.map fun (ranges, rest) => (.cls negated ranges, rest)

/-- Reads at most `n` parts of a pattern; `before` is the character in front of `s`. -/
def readFrom (d : Dialect) : Nat → Option Char → List Char → Reading → Except Fault Reading
  | 0, _, _, r => .ok r
  | _, _, [], r => .ok r
  | n + 1, before, c :: rest, r =>
    match c, rest with
    | '?', _ => readFrom d n (some c) rest (r.push .any)
    | '*', '*' :: rest =>
      let (r, left) := r.twoStars before rest
      let last := if left.length < rest.length then '/' else '*'
      readFrom d n (some last) left r
    | '*', _ => readFrom d n (some c) rest (r.push .star)
    | '\x7b', _ => readFrom d n (some c) rest r.openGroup
    | '\x7d', _ => r.closeGroup.bind (readFrom d n (some c) rest)
    | ',', _ => readFrom d n (some c) rest r.comma
    | '\\', [] => .error .danglingEscape
    | '\\', x :: rest => readFrom d n (some x) rest (r.push (.literal x))
    | '[', _ =>
      if r.loneBracket then readFrom d n (some c) rest (r.push (.literal c))
      else
        match readClass rest with
        | .error e => .error e
        | .ok (some (t, left)) => readFrom d n (some ']') left (r.push t)
        | .ok none =>
          if d.allowsLoneBracket then
            readFrom d n (some c) rest { r.push (.literal c) with loneBracket := true }
          else .error .unclosedClass
    | c, _ => readFrom d n (some c) rest (r.push (.literal c))

/-- The tokens of a pattern. -/
def read (d : Dialect) (pattern : String) : Except Fault (List Token) := do
  let s := pattern.toList
  let r ← readFrom d s.length none s .start
  if r.groups.isEmpty then return r.tokens.reverse else throw .unclosedGroup

end ServiceMap.Glob
