import ServiceMap.Json
import ServiceMap.Registry

/-! The list of the registered services. -/

namespace ServiceMap

structure ListedService (P : Type := Path) where
  name : String
  language : Language
  root : P
  fileCount : Nat
  provides : List String
  consumes : List String
  dependencies : List Dependency

namespace Dependency

def label (d : Dependency) : String :=
  match d.requirement with
  | .required => d.service
  | .optional => s!"{d.service} (optional)"

def toJson (d : Dependency) : Json :=
  .obj [("service", .str d.service), ("requirement", .str d.requirement.name)]

end Dependency

variable {P : Type} [FileName P]

open Writing

namespace ListedService

/-- A line for the items, unless there are none. -/
def writeItems (label : String) (items : List String) : Writing Unit :=
  if items.isEmpty then pure () else line (label ++ " " ++ ", ".intercalate items)

def write (s : ListedService P) : Writing Unit := do
  line s!"  {s.name} ({s.language}) - {s.fileCount} files at {FileName.shown s.root}"
  writeItems "    provides:  " s.provides
  writeItems "    consumes:  " s.consumes
  writeItems "    depends on:" (s.dependencies.map Dependency.label)

def toJson (s : ListedService P) : Json :=
  .obj [("name", .str s.name), ("language", .str s.language.name), ("root", .path s.root),
    ("file_count", .num s.fileCount), ("provides", .strings s.provides),
    ("consumes", .strings s.consumes), ("depends_on", .arr (s.dependencies.map Dependency.toJson))]

end ListedService

abbrev Listing (P : Type := Path) := List (ListedService P)

namespace Listing

/-- The services with their file counts, as far as there are counts. -/
def ofRegistry (r : Registry) (counts : List Nat) : Listing :=
  (r.services.zip counts).map fun (s, count) =>
    ⟨s.name, s.language, s.relativeRoot, count, s.provides, s.consumes, s.dependencies⟩

def write (l : Listing P) : Writing Unit := do
  line s!"Services ({l.length}):"
  l.forM ListedService.write

def writeDocument (l : Listing P) : Writing Unit :=
  (Json.arr (l.map ListedService.toJson)).writeDocument

end Listing
end ServiceMap
