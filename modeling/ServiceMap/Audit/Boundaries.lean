import ServiceMap.Path.Collapse
import ServiceMap.Scan

/-! Imports that reach into the source tree of another service. -/

namespace ServiceMap

structure BoundaryViolation (P : Type := Path) where
  importer : String
  owner : String
  file : P
  line : Nat
  target : String
  deriving DecidableEq, Repr

namespace BoundaryViolation

instance : Ord BoundaryViolation :=
  ⟨compareLex (compareOn importer) (compareLex (compareOn owner)
    (compareLex (compareOn file) (compareLex (compareOn line) (compareOn target))))⟩

end BoundaryViolation

namespace Import

/-- Dots of a module name read as slashes. -/
def dotsToSlashes (s : List Char) : List Char := s.map fun c => if c = '.' then '/' else c

def isRelative (i : Import) : Bool :=
  i.kind = .relativeImport || i.target.toList.head? = some '.'

/-- The place a relative import names, seen from the project root. In Python one dot is the package
of the file and each dot after it one package further up. -/
def place (l : Language) (i : Import) : Path :=
  let dir := i.file.parent?.getD ⟨""⟩
  let target := i.target.toList
  if l = .python && target.head? = some '.' then
    let dots := target.takeWhile (· = '.')
    let rest := target.dropWhile (· = '.')
    let base := (List.replicate (dots.length - 1) ⟨".."⟩).foldl Path.join dir
    if rest = [] then base else base.join ⟨String.ofList (dotsToSlashes rest)⟩
  else dir.join ⟨i.target⟩

/-- The segments of a module name. -/
def segments (l : Language) (i : Import) : List (List Char) :=
  let target := i.target.toList
  Target.segments (if l = .python then dotsToSlashes target else target)

end Import

namespace Service

/-- The segments of the root by which module names are compared with it. -/
def rootSegments (s : Service) : List (List Char) :=
  Target.segments (s.relativeRoot.text.toList.map fun c => if c = '\\' then '/' else c)

end Service

namespace Registry

/-- The service with the deepest root whose segments stand in a row in a module name. -/
def moduleOwner? (r : Registry) (segments : List (List Char)) : Option Service :=
  lastMaxBy (fun s => s.relativeRoot.components.length)
    (r.services.filter fun s => Target.containsRun segments s.rootSegments)

/-- The service that an import leads to. One that climbs out of the project leads to none. -/
def importOwner? (r : Registry) (l : Language) (i : Import) : Option Service :=
  if i.isRelative then
    (i.place l).collapse?.bind fun p => r.owner? (r.projectRoot.join p)
  else r.moduleOwner? (i.segments l)

def violation? (r : Registry) (importer : Service) (i : Import) : Option BoundaryViolation :=
  (r.importOwner? importer.language i).bind fun owner =>
    if owner.name = importer.name then none
    else some ⟨importer.name, owner.name, i.file, i.line, i.target⟩

/-- Scans of services that are not registered are passed over. -/
def scanViolations (r : Registry) (s : Scan) : List BoundaryViolation :=
  match r.find? s.service with
  | some importer => s.imports.filterMap (r.violation? importer)
  | none => []

def boundaryViolations (r : Registry) (scans : List Scan) : List BoundaryViolation :=
  sortBy compare (scans.flatMap r.scanViolations)

end Registry
end ServiceMap
