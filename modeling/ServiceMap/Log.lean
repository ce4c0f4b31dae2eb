import ServiceMap.Audit
import ServiceMap.Sources

/-! What a run logs. -/

namespace ServiceMap

inductive Level where
  | error
  | warn
  | info
  | debug
  | trace
  deriving DecidableEq, Repr

namespace Level

def all : List Level := [error, warn, info, debug, trace]

/-- The most severe level has the least rank. -/
def rank : Level → Nat
  | error => 0
  | warn => 1
  | info => 2
  | debug => 3
  | trace => 4

def name : Level → String
  | error => "ERROR"
  | warn => "WARN"
  | info => "INFO"
  | debug => "DEBUG"
  | trace => "TRACE"

def ofName? (s : String) : Option Level := all.find? fun l => l.name = s.map Char.toUpper

/-- The level that a setting asks for: a level, with or without the program's name in front. -/
def ofSetting? (s : String) : Option Level :=
  match Text.split '=' s.toList with
  | [level] => ofName? (String.ofList level)
  | [program, level] =>
    if String.ofList program = "crossdeps" then ofName? (String.ofList level) else none
  | _ => none

end Level

/-- Something that happened, and the part of the program that reports it. -/
structure Event where
  level : Level
  part : String
  message : String
  deriving DecidableEq, Repr

namespace Event

def text (e : Event) : String := s!"{e.level.name} crossdeps::{e.part}: {e.message}"

/-- Whether the event is at least as severe as a threshold. No threshold lets nothing through. -/
def passes (threshold : Option Level) (e : Event) : Bool :=
  threshold.any fun l => e.level.rank ≤ l.rank

end Event

def Settings.event (s : Settings) : Event :=
  ⟨.info, "config::resolve", s!"loaded {s.services.length} service(s) from {s.configPath.text}"⟩

def Sources.events (s : Sources) : List Event :=
  s.found.map fun (service, files) =>
    ⟨.debug, "registry", s!"{service.name}: {files.length} source file(s)"⟩

def FileScan.event (f : FileScan) : Event :=
  match f.content with
  | .ok (calls, _) =>
    ⟨.debug, "graph::scan", s!"{f.relative.text}: {calls.length} call site(s)"⟩
  | .error reason => ⟨.warn, "graph::scan", s!"Skipping {f.file.text}: {reason}"⟩

def Service.scanEvents (s : Service) (tree : FileTree) (projectRoot : Path)
    (subtree : Option Path) (files : List Path) : List Event :=
  if files.isEmpty then
    [⟨.warn, "graph::scan", s!"{s.name}: source selector matched no files"⟩]
  else
    let read := s.filesRead tree projectRoot subtree files
    if read.isEmpty then
      [⟨.info, "graph::scan", s!"{s.name}: no files under the requested path, skipping"⟩]
    else read.map FileScan.event

def Registry.scanEvents (r : Registry) (tree : FileTree) (sources : List (List Path))
    (subtree : Option Path) : List Event :=
  (r.services.zip sources).flatMap fun (s, files) =>
    s.scanEvents tree r.projectRoot subtree files

/-- An edge that takes up the call is not worth a word. -/
def Outgoing.event? (o : Outgoing) : Option Event :=
  let place := s!"{o.call.file.text}:{o.call.line}"
  match o.call.resolution with
  | some x =>
    if o.isSelf then
      some ⟨.debug, "graph::builder", s!"{o.consumer}: self-call to `{x.api}` at {place}"⟩
    else none
  | none =>
    some ⟨.debug, "graph::builder",
      s!"{o.consumer}: unresolved call target `{o.call.target}` at {place}"⟩

def Graph.event (g : Graph) : Event :=
  ⟨.info, "graph::builder", s!"graph: {g.edges.length} edge(s), " ++
    s!"{g.unresolved.length} unresolved call site(s), {g.selfCalls.length} self-call(s)"⟩

def Draft.events (d : Draft) (r : Registry) : List Event :=
  (d.resolved r).filterMap Outgoing.event? ++ [(d.graph r).event]

def DeclarationReport.events (d : DeclarationReport) : List Event :=
  d.missing.map fun e =>
    ⟨.debug, "checks::validate", s!"undeclared dependency {e.consumer} -> {e.provider}"⟩

def BoundaryViolation.event (v : BoundaryViolation) : Event :=
  ⟨.debug, "checks::boundaries",
    s!"{v.importer}: import `{v.target}` at {v.file.text}:{v.line} reaches into {v.owner}"⟩

def LanguageMismatch.event (m : LanguageMismatch) : Event :=
  let found := ", ".intercalate (m.found.map fun (l, _) => l.name)
  ⟨.warn, "checks::polyglot", s!"{m.service}: declared {m.declared} but contains only {found}"⟩

def Report.events (r : Report) : List Event :=
  let outcome := if r.valid then "no violations" else "violations found"
  (r.crossService.map DeclarationReport.events).getD [] ++
    (r.boundaries.getD []).map BoundaryViolation.event ++
    (r.polyglot.map fun l => l.mismatches.map LanguageMismatch.event).getD [] ++
    [⟨.info, "checks", s!"checks complete: {outcome}"⟩]

end ServiceMap
