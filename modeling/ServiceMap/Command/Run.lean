import ServiceMap.Command.Arguments
import ServiceMap.Diagram.Dot
import ServiceMap.Diagram.Mermaid
import ServiceMap.Listing
import ServiceMap.Log
import ServiceMap.Report.Document
import ServiceMap.Report.Text

/-! The commands. Everything that can be wrong with the configuration ends a run before any source
file is read. -/

namespace ServiceMap.Command

/-- What a run sees and leaves behind. Standard output takes everything, and a file takes all that is
written to it or, when there can be no file in its place, nothing. -/
structure World where
  tree : FileTree
  /-- The directory in which the program was started. -/
  workingDir : Path
  /-- What has been written to standard output. -/
  output : String := ""
  log : List Event := []

/-- A step of a run. What a step has written stays written when a later one fails. -/
abbrev Action := ExceptT Error (StateM World)

def record (events : List Event) : Action Unit :=
  modify fun w => { w with log := w.log ++ events }

/-- Writes a text to a file, or to standard output when none is named. -/
def emit (text : String) (file : Option Path) : Action Unit := do
  let w ← get
  match file with
  | some file =>
    match w.tree.write (w.workingDir.join file) text.toUTF8 with
    | .ok tree =>
      set { w with tree }
      record [⟨.info, "cli", s!"wrote {file.text}"⟩]
    | .error e => throw (.io e)
  | none => set { w with output := w.output ++ text }

/-- The services and their source files. -/
structure Project where
  settings : Settings
  registry : Registry
  sources : List (List Path)

namespace Project

def load (config : Option Path) : Action Project := do
  let w ← get
  let settings ← Settings.load w.tree w.workingDir config
  record [settings.event]
  let registry ← Registry.ofSettings settings
  record (Sources.ofRegistry w.tree registry).events
  return ⟨settings, registry, ← registry.sources w.tree⟩

/-- The subtree that was asked for, as a path without links and dots. -/
def subtree (path : Option Path) : Action (Option Path) := do
  let w ← get
  match path with
  | none => return none
  | some p =>
    match w.tree.canonical (w.workingDir.join p) with
    | .ok p => return some p
    | .error e => throw (.inaccessible p e)

def scan (p : Project) (subtree : Option Path) : Action (List Scan) := do
  let w ← get
  record (p.registry.scanEvents w.tree p.sources subtree)
  return p.registry.scan w.tree p.sources subtree

def report (p : Project) (checks : Checks) (scans : List Scan) : Action Report := do
  let w ← get
  let draft := Draft.ofScans scans
  record (draft.events p.registry)
  let report := p.registry.report w.tree checks scans (draft.graph p.registry)
  record report.events
  return report

def listing (p : Project) : Listing := .ofRegistry p.registry (p.sources.map List.length)

end Project

/-- How long the run took is left open. -/
def finished : Event := ⟨.info, "cli::check", "check finished in _"⟩

namespace CheckArguments

def rendered (a : CheckArguments) (r : Report) : Except Error String :=
  match a.format with
  | .text => r.write.text
  | .json => r.writeDocument.text

def drawn (a : CheckArguments) (edges : List Edge) (r : Registry) : Except Error String :=
  match a.diagramFormat with
  | .mermaid => (Mermaid.write edges r).text
  | .dot => (Dot.write edges r).text

/-- Whether no check has found anything. -/
def run (a : CheckArguments) : Action Bool := do
  let project ← Project.load a.config
  let subtree ← Project.subtree a.subtree
  let scans ← project.scan subtree
  let report ← project.report (a.checksOr project.settings.checks) scans
  emit (← a.rendered report) a.output
  if a.wantsDiagram then
    emit (← a.drawn report.graph.edges project.registry) a.diagramOutput
  record [finished]
  return report.valid

end CheckArguments

namespace ServicesArguments

def rendered (a : ServicesArguments) (l : Listing) : Except Error String :=
  match a.format with
  | .text => l.write.text
  | .json => l.writeDocument.text

def run (a : ServicesArguments) : Action Unit := do
  let project ← Project.load a.config
  emit (← a.rendered project.listing) none

end ServicesArguments

/-- How a run ends. -/
inductive Ending where
  | passed
  /-- The checks have found something. -/
  | violations
  | failed (e : Error)
  /-- The command line makes no sense. -/
  | misused

namespace Ending

def exitCode : Ending → Nat
  | passed => 0
  | violations => 1
  | failed _ => 2
  | misused => 2

end Ending

def version : String := "crossdeps 0.1.0\n"

def usage : String := "Usage: crossdeps <check|services|help> [OPTIONS]\n"

namespace Invocation

def action : Invocation → Action Ending
  | check a => do return if ← a.run then .passed else .violations
  | services a => do a.run; return .passed
  | version => do emit Command.version none; return .passed
  | help => do emit usage none; return .passed
  | misuse => return .misused

/-- How the run ends, and the world it leaves. -/
def run (i : Invocation) (w : World) : Ending × World :=
  match i.action.run w with
  | (.ok ending, w) => (ending, w)
  | (.error e, w) => (.failed e, w)

end Invocation
end ServiceMap.Command
