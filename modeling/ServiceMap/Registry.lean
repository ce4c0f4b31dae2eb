import ServiceMap.Config.Settings
import ServiceMap.Files.Walk

/-! The services under analysis, in the order in which the configuration lists them. -/

namespace ServiceMap

structure Dependency where
  service : String
  requirement : Requirement
  deriving DecidableEq, Repr

structure Service where
  name : String
  language : Language
  /-- The root within the file tree. -/
  root : Path
  /-- The root as the configuration has it. -/
  relativeRoot : Path
  selector : Selector
  /-- Each API once; the earlier one wins where two match a call equally well. -/
  provides : List String
  consumes : List String
  dependencies : List Dependency

namespace Service

def declares (s : Service) (service : String) : Bool :=
  s.dependencies.any fun d => d.service = service

def globs (patterns : List String) : Except Error (Option Globs) :=
  (Globs.ofPatterns? patterns).mapError fun (pattern, fault) => .glob pattern fault

def ofEntry (settings : Settings) (e : Config.ServiceEntry) : Except Error Service := do
  let language ← match Language.ofName? e.language with
    | some l => pure l
    | none => throw (.unknownLanguage e.name e.language)
  let includeGlobs ← globs e.includeGlobs
  let excludeGlobs ← globs (e.excludeGlobs ++ settings.exclude)
  return {
    name := e.name
    language
    root := settings.projectRoot.join ⟨e.root⟩
    relativeRoot := ⟨e.root⟩
    selector := ⟨includeGlobs, excludeGlobs, settings.includeTests⟩
    provides := distinct e.provides
    consumes := distinct e.consumes
    dependencies := e.dependsOn.map fun d => ⟨d.service, d.requirement⟩ }

/-- Whether `p` is the root of the service or below it. -/
def contains (s : Service) (p : Path) : Bool := p.isUnder s.root

/-- The source files of the service. A root that is no directory has none. -/
def files (s : Service) (tree : FileTree) : List Path :=
  if tree.isDir s.root then s.selector.files tree s.language s.root else []

end Service

structure Registry where
  projectRoot : Path
  services : List Service

/-- The last of the members with the greatest key. -/
def lastMaxBy {α : Type} (key : α → Nat) : List α → Option α
  | [] => none
  | a :: l =>
    match lastMaxBy key l with
    | some b => if key a ≤ key b then some b else some a
    | none => some a

namespace Registry

/-- The services of the entries, after those with the names in `taken`. -/
def register (settings : Settings) (taken : List String) :
    List Config.ServiceEntry → Except Error (List Service)
  | [] => .ok []
  | e :: entries => do
    if taken.contains e.name then throw (.duplicateService e.name)
    let s ← Service.ofEntry settings e
    return s :: (← register settings (e.name :: taken) entries)

def find? (r : Registry) (name : String) : Option Service :=
  r.services.find? fun s => s.name = name

/-- The first dependency on a service that is not registered, with the service that declares it. -/
def dangling? (services : List Service) : Option (Service × Dependency) :=
  (services.flatMap fun s => s.dependencies.map fun d => (s, d)).find? fun (_, d) =>
    !services.any fun s => s.name = d.service

def ofSettings (settings : Settings) : Except Error Registry := do
  let services ← register settings [] settings.services
  match dangling? services with
  | some (s, d) => throw (.unknownDependency s.name d.service)
  | none => return ⟨settings.projectRoot, services⟩

/-- Whether a service of this name declares a dependency on the other. -/
def declares (r : Registry) (consumer provider : String) : Bool :=
  (r.find? consumer).any fun s => s.declares provider

/-- The service with the deepest root that contains `p`. -/
def owner? (r : Registry) (p : Path) : Option Service :=
  lastMaxBy (fun s => s.root.components.length) (r.services.filter fun s => s.contains p)

end Registry
end ServiceMap
