import ServiceMap.Reference.Resolution
import ServiceMap.Scan
import ServiceMap.Table

/-! What each language has in it, and services that are declared in one language and written in
others. -/

namespace ServiceMap

structure LanguageSummary where
  language : Language
  services : List String
  filesScanned : Nat
  callSites : Nat
  resolved : Nat
  unresolved : Nat
  deriving DecidableEq, Repr

structure LanguageMismatch where
  service : String
  declared : Language
  /-- How many files of each other language there are. -/
  found : List (Language × Nat)
  deriving DecidableEq, Repr

structure LanguageReport where
  languages : List LanguageSummary
  mismatches : List LanguageMismatch
  deriving DecidableEq, Repr

namespace LanguageSummary

def empty (l : Language) : LanguageSummary := ⟨l, [], 0, 0, 0, 0⟩

/-- Takes in one more service of the language, with its scan. -/
def add (r : Registry) (l : LanguageSummary) (member : Service × Scan) : LanguageSummary :=
  let (s, scan) := member
  let resolved := (scan.calls.filter fun c => (r.resolve? c.target).isSome).length
  { language := l.language
    services := l.services ++ [s.name]
    filesScanned := l.filesScanned + scan.filesScanned
    callSites := l.callSites + scan.calls.length
    resolved := l.resolved + resolved
    unresolved := l.unresolved + (scan.calls.length - resolved) }

/-- The summary with its services by name. -/
def sorted (l : LanguageSummary) : LanguageSummary := { l with services := sortBy compare l.services }

end LanguageSummary

abbrev LanguageTable := Std.TreeMap Language LanguageSummary

/-- Takes in one more service, with its scan, in the summary of its language. -/
def LanguageTable.add (r : Registry) (t : LanguageTable) (member : Service × Scan) : LanguageTable :=
  changeAt t member.1.language (.empty member.1.language) (·.add r member)

namespace LanguageReport

def valid (l : LanguageReport) : Bool := l.mismatches.isEmpty

/-- A service that was scanned, has no file of its own language and files of others. -/
def mismatch? (tree : FileTree) (s : Service) (scan : Scan) : Option LanguageMismatch :=
  if scan.skipped || !tree.isDir s.root then none
  else
    let found := tree.countByLanguage s.root
    if found.isEmpty || found.any fun (l, _) => l = s.language then none
    else some ⟨s.name, s.language, found⟩

/-- Scans stand for services in registration order. -/
def ofScans (tree : FileTree) (r : Registry) (scans : List Scan) : LanguageReport :=
  let members := r.services.zip scans
  let table := members.foldl (LanguageTable.add r) ∅
  { languages := table.toList.map fun (_, l) => l.sorted
    mismatches := sortBy (compareOn LanguageMismatch.service)
      (members.filterMap fun (s, scan) => mismatch? tree s scan) }

end LanguageReport
end ServiceMap
