import ServiceMap.Path

/-! A tree of files, directories and symbolic links, and how a path is followed in it. -/

namespace ServiceMap

inductive Node where
  | file (bytes : ByteArray)
  | link (target : String)
  | dir (children : List (String × Node))
  deriving Inhabited

/-- Why a file could not be reached, read or written. -/
inductive IoFault where
  | notFound
  | notADirectory
  | isADirectory
  | tooManyLinks
  | notText
  /-- Nothing more can be written. -/
  | full
  deriving DecidableEq, Repr

def IoFault.message : IoFault → String
  | notFound => "No such file or directory (os error 2)"
  | notADirectory => "Not a directory (os error 20)"
  | isADirectory => "Is a directory (os error 21)"
  | tooManyLinks => "Too many levels of symbolic links (os error 40)"
  | notText => "stream did not contain valid UTF-8"
  | full => "writer full"

namespace Node

def child? : Node → String → Option Node
  | dir children, name => children.lookup name
  | _, _ => none

/-- The node at the end of a list of names. Links are not followed. -/
def descend? : Node → List String → Option Node
  | n, [] => some n
  | n, name :: names => (n.child? name).bind (descend? · names)

def setChild (children : List (String × Node)) (name : String) (n : Node) : List (String × Node) :=
  if (children.lookup name).isSome then
    children.map fun (k, old) => if k = name then (k, n) else (k, old)
  else children ++ [(name, n)]

/-- The node with `n` at the end of a list of names, and directories on the way. -/
def insert (n : Node) : List String → Node → Node
  | [], _ => n
  | name :: names, at_ =>
    let children := match at_ with
      | dir children => children
      | _ => []
    dir (setChild children name (insert n names ((children.lookup name).getD (dir []))))

/-- The node without what stands at the end of a list of names. -/
def erase : List String → Node → Node
  | [name], dir children => dir (children.filter fun (k, _) => k ≠ name)
  | name :: names, dir children =>
    match children.lookup name with
    | some n => dir (setChild children name (erase names n))
    | none => dir children
  | _, n => n

mutual

/-- Every regular file, with the names that lead to it. -/
def files (above : List String) : Node → List (List String × ByteArray)
  | file bytes => [(above, bytes)]
  | link _ => []
  | dir children => filesIn above children

def filesIn (above : List String) : List (String × Node) → List (List String × ByteArray)
  | [] => []
  | (name, n) :: rest => n.files (above ++ [name]) ++ filesIn above rest

end

end Node

/-- All files, from the root directory down. -/
structure FileTree where
  root : Node

namespace FileTree

def empty : FileTree := ⟨.dir []⟩

def pieces (text : String) : List String := (Text.split '/' text.toList).map String.ofList

def isAbsolute (text : String) : Bool := text.toList.head? = some '/'

/-- How many links a path may go through. -/
def linkLimit : Nat := 40

/-- Follows pieces of a path from a directory. The answer gives the names from the root to where the
path leads, without links and dots, and what is there; a last name that is missing is an answer too
when `mayEndOpen`. -/
def follow (tree : FileTree) (mayEndOpen : Bool) (links : Nat) (done : List String) :
    List String → Except IoFault (List String × Option Node)
  | [] => .ok (done, tree.root.descend? done)
  | piece :: rest =>
    match tree.root.descend? done with
    | some (.dir children) =>
      if piece = "" || piece = "." then tree.follow mayEndOpen links done rest
      else if piece = ".." then tree.follow mayEndOpen links done.dropLast rest
      else match children.lookup piece with
        | none =>
          if mayEndOpen && rest.isEmpty then .ok (done ++ [piece], none) else .error .notFound
        | some (.link target) =>
          match links with
          | 0 => .error .tooManyLinks
          | links + 1 =>
            let start := if isAbsolute target then [] else done
            tree.follow mayEndOpen links start (pieces target ++ rest)
        | some _ => tree.follow mayEndOpen links (done ++ [piece]) rest
    | _ => .error .notADirectory
termination_by todo => (links, todo.length)

/-- What a path leads to, and the names from the root to it. A relative path starts at the root. -/
def resolve (tree : FileTree) (p : Path) : Except IoFault (List String × Node) :=
  if p.text = "" then .error .notFound
  else
    match tree.follow false linkLimit [] (pieces p.text) with
    | .ok (names, some n) => .ok (names, n)
    | .ok (_, none) => .error .notFound
    | .error e => .error e

def pathOf (names : List String) : Path := ⟨"/" ++ "/".intercalate names⟩

/-- The path to the same place without links, dots and doubled slashes. -/
def canonical (tree : FileTree) (p : Path) : Except IoFault Path :=
  (tree.resolve p).map fun (names, _) => pathOf names

def exists? (tree : FileTree) (p : Path) : Bool := (tree.resolve p).isOk

def isFile (tree : FileTree) (p : Path) : Bool :=
  match tree.resolve p with
  | .ok (_, .file _) => true
  | _ => false

def isDir (tree : FileTree) (p : Path) : Bool :=
  match tree.resolve p with
  | .ok (_, .dir _) => true
  | _ => false

def read (tree : FileTree) (p : Path) : Except IoFault ByteArray :=
  match tree.resolve p with
  | .ok (_, .file bytes) => .ok bytes
  | .ok _ => .error .isADirectory
  | .error e => .error e

def readText (tree : FileTree) (p : Path) : Except IoFault String :=
  match tree.read p with
  | .ok bytes =>
    match String.fromUTF8? bytes with
    | some s => .ok s
    | none => .error .notText
  | .error e => .error e

/-- The tree after a file has been written. Links are followed, and the directory must be there. -/
def write (tree : FileTree) (p : Path) (bytes : ByteArray) : Except IoFault FileTree :=
  if p.text = "" then .error .notFound
  else
    match tree.follow true linkLimit [] (pieces p.text) with
    | .ok (_, some (.dir _)) => .error .isADirectory
    | .ok (names, _) => .ok ⟨Node.insert (.file bytes) names tree.root⟩
    | .error e => .error e

/-- The names of a path that has no dots and goes through no links. -/
def plainNames (p : Path) : List String :=
  (pieces p.text).filter fun s => s ≠ "" && s ≠ "."

/-- Puts a node at a path, with directories on the way. -/
def insert (tree : FileTree) (p : Path) (n : Node) : FileTree :=
  ⟨Node.insert n (plainNames p) tree.root⟩

/-- Takes away what stands at a path itself, be it a link. -/
def erase (tree : FileTree) (p : Path) : FileTree :=
  ⟨Node.erase (plainNames p) tree.root⟩

/-- The regular files that are new in `after`, or hold something else than before. -/
def changed (before after : FileTree) : List (Path × ByteArray) :=
  ((after.root.files []).filter fun (names, bytes) =>
    match before.root.descend? names with
    | some (.file old) => old != bytes
    | _ => true).map fun (names, bytes) => (pathOf names, bytes)

end FileTree
end ServiceMap
