import ServiceMap.Registry

/-! The source files of each service. No file may belong to two services. -/

namespace ServiceMap

/-- A file that a service selects after an earlier one has. -/
structure Clash where
  file : Path
  first : String
  second : String
  deriving DecidableEq, Repr

/-- The files of the services in registration order, up to the first clash. -/
structure Sources where
  found : List (Service × List Path)
  clash? : Option Clash

namespace Sources

/-- The service that has a file already. -/
def holder? (found : List (Service × List Path)) (file : Path) : Option Service :=
  (found.find? fun (_, files) => files.any fun f => compare f file = .eq).map (·.1)

/-- The first of a service's files that an earlier service has. -/
def clashOf? (found : List (Service × List Path)) (s : Service) (files : List Path) :
    Option Clash :=
  files.findSome? fun f => (holder? found f).map fun h => ⟨f, h.name, s.name⟩

def add (tree : FileTree) (acc : Sources) (s : Service) : Sources :=
  match acc.clash? with
  | some _ => acc
  | none =>
    let files := s.files tree
    match clashOf? acc.found s files with
    | some c => { acc with clash? := some c }
    | none => { acc with found := acc.found ++ [(s, files)] }

def ofRegistry (tree : FileTree) (r : Registry) : Sources :=
  r.services.foldl (add tree) ⟨[], none⟩

def files (s : Sources) : List (List Path) := s.found.map (·.2)

end Sources

/-- The source files of each service, if no two services share one. -/
def Registry.sources (r : Registry) (tree : FileTree) : Except Error (List (List Path)) :=
  let s := Sources.ofRegistry tree r
  match s.clash? with
  | some c => .error (.overlap (c.file.relativeTo r.projectRoot) c.first c.second)
  | none => .ok s.files

end ServiceMap
