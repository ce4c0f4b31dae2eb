import ServiceMap.Files.IgnoreRules
import ServiceMap.Language
import ServiceMap.Order

/-! The files below a directory that its ignore files let through, and which of them are sources. -/

namespace ServiceMap

mutual

/-- The entries below a directory at `at_` that are no directories. A directory that is ignored is
not entered, and links to directories are not followed. -/
def walkChildren (tree : FileTree) (chain : IgnoreChain) (at_ : Path) :
    List (String × Node) → List Path
  | [] => []
  | (name, n) :: rest =>
    (if chain.ignores name (match n with
      | .dir _ => true
      | _ => false) then []
    else walkNode tree chain at_ name n) ++ walkChildren tree chain at_ rest

def walkNode (tree : FileTree) (chain : IgnoreChain) (at_ : Path) (name : String) :
    Node → List Path
  | .dir children =>
    let inner := at_.join ⟨name⟩
    walkChildren tree (chain.enter name (.ofDir tree inner)) inner children
  | _ => [at_.join ⟨name⟩]

end

/-- The regular files that a walk from `root` meets. The root itself is followed when it is a link,
and is never ignored. -/
def FileTree.walk (tree : FileTree) (root : Path) : List Path :=
  match tree.resolve root with
  | .ok (names, .dir children) =>
    let chain := (IgnoreLevel.ofDir tree root, []) :: IgnoreChain.above tree names
    (walkChildren tree chain root children).filter tree.isFile
  | .ok (_, .file _) => [root]
  | _ => []

namespace Language

def testSet (l : Language) : Globs :=
  match Globs.ofPatterns l.testGlobs with
  | .ok set => set
  | .error _ => ⟨[]⟩

def owns (l : Language) (p : Path) : Bool := p.extension?.any l.extensions.contains

end Language

/-- Decides which files below a directory belong to a service. -/
structure Selector where
  includeGlobs : Option Globs
  excludeGlobs : Option Globs
  includeTests : Bool

namespace Selector

/-- Globs see the path below `root`; whether a file is a test is told by its name. -/
def selects (s : Selector) (l : Language) (root p : Path) : Bool :=
  let relative := (p.relativeTo root).text
  l.owns p && !s.excludeGlobs.any (·.contains relative) &&
    (s.includeTests || !p.fileName?.any l.testSet.contains) &&
    s.includeGlobs.all (·.contains relative)

/-- The selected files, in ascending order. -/
def files (s : Selector) (tree : FileTree) (l : Language) (root : Path) : List Path :=
  sortBy compare ((tree.walk root).filter (s.selects l root))

end Selector

/-- How many files of each language a walk from `root` meets, for the languages that it meets. -/
def FileTree.countByLanguage (tree : FileTree) (root : Path) : List (Language × Nat) :=
  let found := (tree.walk root).filterMap fun p => p.extension?.bind Language.ofExtension?
  (Language.all.map fun l => (l, found.count l)).filter fun (_, n) => 0 < n

end ServiceMap
