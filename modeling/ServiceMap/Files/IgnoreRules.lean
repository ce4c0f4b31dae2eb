import ServiceMap.Files.Tree
import ServiceMap.Glob.Matching
import ServiceMap.Text.Blank

/-! Ignore files: rules for what a walk passes over, and how the rules of a directory and of those
above it are weighed. -/

namespace ServiceMap

structure IgnoreRule where
  tokens : List Glob.Token
  /-- The rule keeps what an earlier one ignores. -/
  keeps : Bool
  onlyDirs : Bool

namespace IgnoreRule

/-- Globs in an ignore file: a star stays within a component. -/
def dialect : Glob.Dialect := ⟨true, true⟩

/-- Without white space at the end, unless the last blank is escaped. -/
def trimmed (line : List Char) : List Char :=
  if ['\\', ' '].isSuffixOf line then line else Text.trimEnd line

/-- What the marks at the start of a line say: whether the rule keeps, whether its pattern is bound
to the directory of the file, and the pattern. A backslash lets a pattern start with a mark. -/
def marks (line : List Char) : Bool × Bool × List Char :=
  if ['\\', '!'].isPrefixOf line || ['\\', '#'].isPrefixOf line then (false, false, line.drop 1)
  else
    let (keeps, s) := match line with
      | '!' :: r => (true, r)
      | s => (false, s)
    match s with
    | '/' :: r => (keeps, true, r)
    | s => (keeps, false, s)

/-- Whether a slash at the end asks for a directory, and the pattern without it. -/
def dirMark (s : List Char) : Bool × List Char :=
  if s.getLast? = some '/' then
    let s := s.dropLast
    (true, if s.getLast? = some '\\' then s.dropLast else s)
  else (false, s)

/-- A pattern without slash holds at any depth, and one that ends in two stars for what is below a
directory but not for itself. -/
def spread (bound : Bool) (s : List Char) : List Char :=
  let anywhere := !bound && !s.contains '/' && s ≠ ['*', '*']
  let s := if anywhere then ['*', '*', '/'] ++ s else s
  if ['/', '*', '*'].isSuffixOf s then s ++ ['/', '*'] else s

/-- The rule of a line. Comments, blank lines and patterns that are no glob give none. -/
def ofLine? (line : List Char) : Option IgnoreRule :=
  let line := if line.head? = some '#' then [] else trimmed line
  if line = [] then none
  else
    let (keeps, bound, s) := marks line
    let (onlyDirs, s) := dirMark s
    match Glob.read dialect (String.ofList (spread bound s)) with
    | .ok tokens => some ⟨tokens, keeps, onlyDirs⟩
    | .error _ => none

def applies (r : IgnoreRule) (path : String) (isDir : Bool) : Bool :=
  (isDir || !r.onlyDirs) && Glob.accepts dialect r.tokens path

end IgnoreRule

/-- The rules of a file, in order. -/
abbrev IgnoreRules := List IgnoreRule

namespace IgnoreRules

def splitBytes (bytes : List UInt8) : List (List UInt8) :=
  bytes.foldr (fun b ps => if b = 0x0A then [] :: ps else match ps with
    | [] => [[b]]
    | p :: ps => (b :: p) :: ps) [[]]

/-- The lines of a file up to the first that is no text. -/
def textLines (bytes : ByteArray) : List (List Char) :=
  let pieces := splitBytes bytes.data.toList
  let decoded := pieces.map fun p => (String.fromUTF8? ⟨p.toArray⟩).map String.toList
  let good := (decoded.takeWhile Option.isSome).map fun l => l.getD []
  Text.linesOfPieces (if good.length < pieces.length then good ++ [[]] else good)

/-- Byte order marks in front of the first line are dropped. -/
def ofLines : List (List Char) → IgnoreRules
  | [] => []
  | first :: rest => ((first.dropWhile (· = '\ufeff')) :: rest).filterMap IgnoreRule.ofLine?

def ofFile (tree : FileTree) (p : Path) : IgnoreRules :=
  match tree.read p with
  | .ok bytes => ofLines (textLines bytes)
  | .error _ => []

/-- What the last rule that applies says: whether the path is ignored. -/
def verdict? (rules : IgnoreRules) (path : String) (isDir : Bool) : Option Bool :=
  (rules.reverse.find? fun r => r.applies path isDir).map fun r => !r.keeps

end IgnoreRules

/-- The ignore files of one directory. -/
structure IgnoreLevel where
  /-- `.ignore`, which holds anywhere. -/
  plain : IgnoreRules
  /-- `.gitignore`, which holds within a repository. -/
  git : IgnoreRules
  /-- `.git/info/exclude` of a repository that starts here. -/
  exclude : IgnoreRules
  startsRepository : Bool

namespace IgnoreLevel

def ofDir (tree : FileTree) (dir : Path) : IgnoreLevel where
  plain := .ofFile tree (dir.join ⟨".ignore"⟩)
  git := .ofFile tree (dir.join ⟨".gitignore"⟩)
  exclude := .ofFile tree (dir.join ⟨".git/info/exclude"⟩)
  startsRepository := tree.exists? (dir.join ⟨".git"⟩)

end IgnoreLevel

/-- The levels that count in a directory, the directory's own first, each with the names from its
directory down to this one. -/
abbrev IgnoreChain := List (IgnoreLevel × List String)

namespace IgnoreChain

/-- The chain in a directory `name` below. -/
def enter (chain : IgnoreChain) (name : String) (level : IgnoreLevel) : IgnoreChain :=
  (level, []) :: chain.map fun (l, names) => (l, names ++ [name])

/-- The levels up to the start of the repository, and all when there is none above. -/
def repository (chain : IgnoreChain) : IgnoreChain :=
  let below := chain.takeWhile fun (l, _) => !l.startsRepository
  below ++ (chain.drop below.length).take 1

def ask (chain : IgnoreChain) (rules : IgnoreLevel → IgnoreRules) (name : String) (isDir : Bool) :
    Option Bool :=
  chain.findSome? fun (l, names) =>
    (rules l).verdict? ("/".intercalate (names ++ [name])) isDir

/-- Whether an entry is ignored. The nearest level that says something decides, and `.ignore` files
come before `.gitignore` files and these before the repository's own list. -/
def ignores (chain : IgnoreChain) (name : String) (isDir : Bool) : Bool :=
  let own := chain.ask IgnoreLevel.plain name isDir
  let shared :=
    if chain.any fun (l, _) => l.startsRepository then
      (chain.repository.ask IgnoreLevel.git name isDir).or
        (chain.repository.ask IgnoreLevel.exclude name isDir)
    else none
  (own.or shared).getD false

/-- The levels of the directories above `names`, for a directory at `names`. -/
def above (tree : FileTree) (names : List String) : IgnoreChain :=
  (List.range names.length).reverse.map fun n =>
    (.ofDir tree (FileTree.pathOf (names.take n)), names.drop n)

end IgnoreChain
end ServiceMap
