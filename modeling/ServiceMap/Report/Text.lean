import ServiceMap.Audit
import ServiceMap.Writing

/-! The report as text, in sections. -/

namespace ServiceMap

open Writing

/-- A title and a line of dashes of the same length. -/
def writeHeading (title : String) : Writing Unit := do
  line title
  line (String.ofList (List.replicate title.length '-'))

/-- A section with a line for each item, or one that there are none. -/
def writeSection {α : Type} (title : String) (textLine : α → String) (items : List α) :
    Writing Unit := do
  writeHeading title
  if items.isEmpty then line "  None" else items.forM fun a => line (textLine a)

def padRight (width : Nat) (s : String) : String :=
  s ++ String.ofList (List.replicate (width - s.length) ' ')

def padLeft (width : Nat) (s : String) : String :=
  String.ofList (List.replicate (width - s.length) ' ') ++ s

namespace NameSet

def listed (s : NameSet) : String := ", ".intercalate s.toList

end NameSet

namespace Edge

def textLine (e : Edge) : String := s!"  {e.consumer} -> {e.provider} ({e.apis.listed})"

end Edge

namespace EdgeStatus

def mark (s : EdgeStatus) : String := if s.declared then "✅" else "❌"

def textLine (s : EdgeStatus) : String :=
  s!"  {s.mark} {s.edge.provider} ({s.edge.apis.listed})"

end EdgeStatus

namespace DeclarationReport

def writeService (name : String) (statuses : List EdgeStatus) : Writing Unit := do
  line name
  if statuses.isEmpty then line "  (no outgoing calls)"
  else statuses.forM fun s => line s.textLine

def write (d : DeclarationReport) : Writing Unit := do
  writeHeading "Services"
  d.perService.forM fun (name, statuses) => writeService name statuses
  line ""
  writeSection "Missing Dependencies" Edge.textLine d.missing

end DeclarationReport

def UnusedDeclaration.textLine (u : UnusedDeclaration) : String :=
  s!"  {u.service} -> {u.dependency} ({u.requirement.name})"

def writeCycles (cycles : List (List String)) : Writing Unit :=
  writeSection "Circular Dependencies" (fun c => "  " ++ " -> ".intercalate c) cycles

namespace LanguageReport

/-- The name to the left of its column and the numbers to the right of theirs. -/
def row (name services files calls resolved unresolved : String) : String :=
  " ".intercalate ["  " ++ padRight 12 name, padLeft 8 services, padLeft 6 files, padLeft 6 calls,
    padLeft 9 resolved, padLeft 11 unresolved]

def summaryLine (l : LanguageSummary) : String :=
  row l.language.name (toString l.services.length) (toString l.filesScanned)
    (toString l.callSites) (toString l.resolved) (toString l.unresolved)

def mismatchLine (m : LanguageMismatch) : String :=
  let found := ", ".intercalate (m.found.map fun (l, count) => s!"{l}: {count}")
  s!"  ❌ {m.service} declares {m.declared} but contains {found}"

def write (l : LanguageReport) : Writing Unit := do
  writeHeading "Polyglot Summary"
  line (row "Language" "Services" "Files" "Calls" "Resolved" "Unresolved")
  l.languages.forM fun s => line (summaryLine s)
  l.mismatches.forM fun m => line (mismatchLine m)

end LanguageReport

def ServiceSummary.skippedLine (s : ServiceSummary) : String :=
  s!"  {s.name} (no files under the requested path)"

section

variable {P : Type} [FileName P]

def BoundaryViolation.textLine (v : BoundaryViolation P) : String :=
  s!"  {v.importer} -> {v.owner}  {FileName.shown v.file}:{v.line}  imports \"{v.target}\""

def CallSite.textLine (c : CallSite P) : String :=
  s!"  {FileName.shown c.file}:{c.line}  {c.target}"

namespace Report

def writeSummary (r : Report P) : Writing Unit := do
  line "Crossdeps Dependency Report"
  line "==========================="
  line ""
  line ("Result:    " ++ if r.valid then "PASS" else "FAIL")
  line s!"Services:  {r.services.length} ({r.skipped.length} skipped)"
  line s!"Edges:     {r.graph.edges.length}"
  line s!"Calls:     {r.graph.unresolved.length} unresolved, {r.graph.selfCalls.length} self"

/-- The edges, with whether they are declared if that has been checked. -/
def writeEdges (r : Report P) : Writing Unit :=
  match r.crossService with
  | some d => d.write
  | none => writeSection "Dependencies" Edge.textLine r.graph.edges

/-- The section of a check that ran. -/
def writeCheck {α : Type} (write : α → Writing Unit) : Option α → Writing Unit
  | some a => do
    line ""
    write a
  | none => return

/-- A section, unless there is nothing to put into it. -/
def writeAny {α : Type} (title : String) (textLine : α → String) (items : List α) :
    Writing Unit :=
  if items.isEmpty then pure ()
  else do
    line ""
    writeHeading title
    items.forM fun a => line (textLine a)

def write (r : Report P) : Writing Unit := do
  r.writeSummary
  line ""
  r.writeEdges
  writeCheck writeCycles r.circular
  writeCheck (writeSection "Boundary Violations" BoundaryViolation.textLine) r.boundaries
  writeCheck LanguageReport.write r.polyglot
  writeAny "Unused Declarations" UnusedDeclaration.textLine
    ((r.crossService.map DeclarationReport.unused).getD [])
  writeAny "Scan Warnings" (fun w => "  " ++ w.message) r.graph.warnings
  writeAny "Unresolved Calls" CallSite.textLine r.graph.unresolved
  writeAny "Skipped Services" ServiceSummary.skippedLine r.skipped

end Report

end

/-- The edges, declared or not, and the cycles. -/
def writeOverview (d : DeclarationReport) (cycles : List (List String)) : Writing Unit := do
  d.write
  line ""
  writeCycles cycles

end ServiceMap
