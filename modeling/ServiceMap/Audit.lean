import ServiceMap.Audit.Boundaries
import ServiceMap.Audit.Declarations
import ServiceMap.Audit.Languages
import ServiceMap.Graph.Basic
import ServiceMap.Graph.Cycles

/-! The report of a run: the graph, and what the checks that ran have found. -/

namespace ServiceMap

structure ServiceSummary where
  name : String
  language : Language
  filesScanned : Nat
  callSites : Nat
  skipped : Bool
  deriving DecidableEq, Repr

/-- A check that did not run has no part in the report. -/
structure Report (P : Type := Path) where
  services : List ServiceSummary
  graph : Graph P
  crossService : Option DeclarationReport
  circular : Option (List (List String))
  boundaries : Option (List (BoundaryViolation P))
  polyglot : Option LanguageReport

namespace Report

variable {P : Type}

/-- Whether no check has found anything. -/
def valid (r : Report P) : Bool :=
  r.crossService.all DeclarationReport.valid && r.circular.all List.isEmpty &&
    r.boundaries.all List.isEmpty && r.polyglot.all LanguageReport.valid

def skipped (r : Report P) : List ServiceSummary := r.services.filter ServiceSummary.skipped

end Report

def Scan.summary (s : Service) (scan : Scan) : ServiceSummary :=
  ⟨s.name, s.language, scan.filesScanned, scan.calls.length, scan.skipped⟩

/-- Runs the checks that are on. -/
def Registry.report (r : Registry) (tree : FileTree) (checks : Checks) (scans : List Scan)
    (graph : Graph) : Report where
  services := (r.services.zip scans).map fun (s, scan) => scan.summary s
  graph
  crossService := if checks.crossService then some (.ofEdges graph.edges r) else none
  circular := if checks.circular then some (cycles graph.edges) else none
  boundaries := if checks.boundaries then some (r.boundaryViolations scans) else none
  polyglot := if checks.polyglot then some (.ofScans tree r scans) else none

end ServiceMap
