import ServiceMap.Audit
import ServiceMap.Json

/-! The report as a JSON document. -/

namespace ServiceMap

variable {P : Type} [FileName P]

def NameSet.toJson (s : NameSet) : Json := .strings s.toList

def CallSite.toJson (c : CallSite P) : Json :=
  .obj ([("source_file", .path c.file), ("line_number", .num c.line),
    ("raw_target", .str c.target), ("rule", .str c.rule)] ++
    match c.resolution with
    | some x => [("matched_api", .str x.api), ("provider", .str x.provider)]
    | none => [])

def Import.toJson (i : Import) : Json :=
  .obj [("source_file", .path i.file), ("line_number", .num i.line),
    ("raw_target", .str i.target), ("kind", .str i.kind.name)]

def Warning.toJson : Warning P → Json
  | noSourceFiles service => .obj [("kind", .str "no_source_files"), ("service", .str service)]
  | unreadableFile service file reason =>
    .obj [("kind", .str "unreadable_file"), ("service", .str service), ("file", .path file),
      ("reason", .str reason)]

namespace Edge

def fields (e : Edge) : List (String × Json) :=
  [("from", .str e.consumer), ("to", .str e.provider), ("apis", e.apis.toJson)]

def toJson (e : Edge) : Json := .obj e.fields

end Edge

def EdgeStatus.toJson (s : EdgeStatus) : Json :=
  .obj (s.edge.fields ++ [("declared", .bool s.declared)])

def UnusedDeclaration.toJson (u : UnusedDeclaration) : Json :=
  .obj [("service", .str u.service), ("dependency", .str u.dependency),
    ("requirement", .str u.requirement.name)]

def DeclarationReport.toJson (d : DeclarationReport) : Json :=
  .obj [("valid", .bool d.valid),
    ("per_service", .obj (d.perService.map fun (name, statuses) =>
      (name, .arr (statuses.map EdgeStatus.toJson)))),
    ("violations", .arr (d.missing.map Edge.toJson)),
    ("unused_declarations", .arr (d.unused.map UnusedDeclaration.toJson))]

def cyclesJson (cycles : List (List String)) : Json :=
  .obj [("cycles", .arr (cycles.map Json.strings))]

def BoundaryViolation.toJson (v : BoundaryViolation P) : Json :=
  .obj [("from", .str v.importer), ("to", .str v.owner), ("file", .path v.file),
    ("line", .num v.line), ("import", .str v.target)]

def boundariesJson (violations : List (BoundaryViolation P)) : Json :=
  .obj [("valid", .bool violations.isEmpty),
    ("violations", .arr (violations.map BoundaryViolation.toJson))]

def LanguageSummary.toJson (l : LanguageSummary) : Json :=
  .obj [("language", .str l.language.name), ("services", .strings l.services),
    ("files_scanned", .num l.filesScanned), ("call_sites", .num l.callSites),
    ("resolved", .num l.resolved), ("unresolved", .num l.unresolved)]

def LanguageMismatch.toJson (m : LanguageMismatch) : Json :=
  .obj [("service", .str m.service), ("declared", .str m.declared.name),
    ("found", .obj (m.found.map fun (l, count) => (l.name, .num count)))]

def LanguageReport.toJson (l : LanguageReport) : Json :=
  .obj [("valid", .bool l.valid), ("languages", .arr (l.languages.map LanguageSummary.toJson)),
    ("mismatches", .arr (l.mismatches.map LanguageMismatch.toJson))]

def ServiceSummary.toJson (s : ServiceSummary) : Json :=
  .obj [("name", .str s.name), ("language", .str s.language.name),
    ("files_scanned", .num s.filesScanned), ("call_sites", .num s.callSites),
    ("skipped", .bool s.skipped)]

namespace Report

/-- The part of a check that ran. -/
def part {α : Type} (name : String) (toJson : α → Json) (a : Option α) : List (String × Json) :=
  (a.map fun a => (name, toJson a)).toList

def toJson (r : Report P) : Json :=
  .obj ([("valid", .bool r.valid), ("services", .arr (r.services.map ServiceSummary.toJson)),
    ("edges", .arr (r.graph.edges.map Edge.toJson))] ++
    part "cross_service" DeclarationReport.toJson r.crossService ++
    part "circular" cyclesJson r.circular ++
    part "boundaries" boundariesJson r.boundaries ++
    part "polyglot" LanguageReport.toJson r.polyglot ++
    [("unresolved", .arr (r.graph.unresolved.map CallSite.toJson)),
    ("self_calls", .arr (r.graph.selfCalls.map CallSite.toJson)),
    ("warnings", .arr (r.graph.warnings.map Warning.toJson))])

def writeDocument (r : Report P) : Writing Unit := r.toJson.writeDocument

end Report
end ServiceMap
