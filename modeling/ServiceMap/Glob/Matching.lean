import ServiceMap.Glob.Reader
import ServiceMap.Text.Utf8

/-! Matching a path with a glob. A glob sees the bytes of the path: `?` and a class take one byte,
not one character. -/

namespace ServiceMap.Glob

def slash : UInt8 := 0x2F

/-- The bytes of a class: those of its characters, and those between the last byte of a range's
first character and the first byte of its last one. -/
def rangeHolds (b : UInt8) (r : Char × Char) : Bool :=
  let first := Text.utf8 r.1.toString
  let last := Text.utf8 r.2.toString
  first.contains b || last.contains b ||
    (r.1 ≠ r.2 && first.getLast?.any (· ≤ b) && last.head?.any (b ≤ ·))

mutual

/-- Whether a token takes nothing and asks for nothing: a group of branches that do. -/
def Token.isIdle : Token → Bool
  | .choice branches => allIdle branches
  | _ => false

def isIdleBranch : List Token → Bool
  | [] => true
  | t :: ts => t.isIdle && isIdleBranch ts

def allIdle : List (List Token) → Bool
  | [] => true
  | b :: bs => isIdleBranch b && allIdle bs

end

/-- Whether `k` accepts what is left after some bytes of `ok`. -/
def afterRun (ok : UInt8 → Bool) (k : List UInt8 → Bool) : List UInt8 → Bool
  | [] => k []
  | b :: r => k (b :: r) || (ok b && afterRun ok k r)

/-- Whether `k` accepts what is left after some slash. -/
def afterSlash (k : List UInt8 → Bool) : List UInt8 → Bool
  | [] => false
  | b :: r => (b = slash && k r) || afterSlash k r

mutual

/-- Whether a token takes bytes from the front so that `k` accepts what is left. A branch that asks
for nothing counts only where all branches do. -/
def Token.run (d : Dialect) : Token → (List UInt8 → Bool) → List UInt8 → Bool
  | .literal c, k, s =>
    let bytes := Text.utf8 c.toString
    bytes.isPrefixOf s && k (s.drop bytes.length)
  | .any, k, s =>
    match s with
    | [] => false
    | b :: r => !(d.keepsToComponent && b = slash) && k r
  | .star, k, s => afterRun (fun b => !(d.keepsToComponent && b = slash)) k s
  | .leadingDirs, k, s => k s || afterSlash k s
  | .innerDirs, k, s =>
    match s with
    | [] => false
    | b :: r => b = slash && (k r || afterSlash k r)
  | .allBelow, k, s =>
    match s with
    | [] => false
    | b :: r => b = slash && afterRun (fun _ => true) k r
  | .cls negated ranges, k, s =>
    match s with
    | [] => false
    | b :: r => (ranges.any (rangeHolds b) != negated) && k r
  | .choice branches, k, s => if allIdle branches then k s else runBranches d branches k s

def runTokens (d : Dialect) : List Token → (List UInt8 → Bool) → List UInt8 → Bool
  | [], k, s => k s
  | t :: ts, k, s => t.run d (runTokens d ts k) s

def runBranches (d : Dialect) : List (List Token) → (List UInt8 → Bool) → List UInt8 → Bool
  | [], _, _ => false
  | b :: bs, k, s => (!isIdleBranch b && runTokens d b k s) || runBranches d bs k s

end

def isLiteral : Token → Bool
  | .literal _ => true
  | _ => false

def isSlash : Token → Bool
  | .literal c => c = '/'
  | _ => false

def isDot : Token → Bool
  | .literal c => c = '.'
  | _ => false

/-- Whether a pattern is compared with the end of the whole path: literals after directories, or
after a star that may span them. -/
def isPathEnd (d : Dialect) (tokens : List Token) : Bool :=
  let (dirs, tail) := match tokens with
    | .leadingDirs :: r => (true, r)
    | r => (false, r)
  match tail with
  | .star :: text =>
    !d.keepsToComponent && text.all isLiteral && !(text.length = 1 && text.all isDot)
  | text => text.all isLiteral && (!dirs || text.any isSlash)

/-- Whether a pattern that ends in a dot is looked up by the file name or extension of the path. -/
def needsName (d : Dialect) (tokens : List Token) : Bool :=
  tokens.getLast?.any isDot && !isPathEnd d tokens

/-- Whether the tokens match all of a path. Two stars alone match everything. A path that ends in a
dot has neither file name nor extension to be looked up by. -/
def accepts (d : Dialect) (tokens : List Token) (path : String) : Bool :=
  let bytes := Text.utf8 path
  match tokens with
  | [.leadingDirs] => true
  | _ =>
    runTokens d tokens List.isEmpty bytes && !(bytes.getLast? = some 0x2E && needsName d tokens)

end Glob

/-- A set of globs; a path is in it when one of them matches. -/
structure Globs where
  members : List (List Glob.Token)

namespace Globs

/-- Globs in a configuration: a star may span directories. -/
def dialect : Glob.Dialect := ⟨false, false⟩

/-- The first pattern that is no glob, with what is wrong with it, ends the reading. -/
def ofPatterns (patterns : List String) : Except (String × Glob.Fault) Globs :=
  (patterns.mapM fun p => (Glob.read dialect p).mapError fun e => (p, e)).map Globs.mk

/-- No patterns make no set. -/
def ofPatterns? (patterns : List String) : Except (String × Glob.Fault) (Option Globs) :=
  if patterns.isEmpty then .ok none else (ofPatterns patterns).map some

def contains (globs : Globs) (path : String) : Bool :=
  globs.members.any fun tokens => Glob.accepts dialect tokens path

end Globs
end ServiceMap
