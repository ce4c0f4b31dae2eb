import ServiceMap.Path.Name
import ServiceMap.Reference.Extraction
import ServiceMap.Registry

/-! What the source files of a service hold: its calls, its imports, and the files that could not be
read. -/

namespace ServiceMap

/-- Something a scan could not do. It is reported and ends nothing. -/
inductive Warning (P : Type := Path) where
  | noSourceFiles (service : String)
  | unreadableFile (service : String) (file : P) (reason : String)
  deriving DecidableEq, Repr

namespace Warning

def message {P : Type} [FileName P] : Warning P → String
  | noSourceFiles service => s!"{service}: source selector matched no files"
  | unreadableFile service file reason =>
    s!"{service}: skipped {FileName.shown file} ({reason})"

def rank : Warning → Nat
  | noSourceFiles _ => 0
  | unreadableFile _ _ _ => 1

def service : Warning → String
  | noSourceFiles s => s
  | unreadableFile s _ _ => s

def file? {P : Type} : Warning P → Option P
  | noSourceFiles _ => none
  | unreadableFile _ f _ => some f

def reason : Warning → String
  | noSourceFiles _ => ""
  | unreadableFile _ _ r => r

/-- Services without files come first. -/
instance : Ord Warning :=
  ⟨compareLex (compareOn rank) (compareLex (compareOn service)
    (compareLex (compareOn file?) (compareOn reason)))⟩

instance : Std.TransOrd Warning :=
  inferInstanceAs (Std.TransCmp (compareLex (compareOn rank) (compareLex (compareOn service)
    (compareLex (compareOn file?) (compareOn reason)))))

end Warning

/-- What one file holds, or why it could not be read. Its calls and imports carry the path below the
project root. -/
structure FileScan where
  file : Path
  relative : Path
  content : Except String (List CallSite × List Import)

namespace FileScan

/-- The text of a file, or why there is none. -/
def source (tree : FileTree) (file : Path) : Except String String :=
  match tree.read file with
  | .error e => .error e.message
  | .ok bytes =>
    match String.fromUTF8? bytes with
    | some s => .ok s
    | none => .error "binary or non-UTF-8 content"

def ofFile (tree : FileTree) (projectRoot : Path) (l : Language) (file : Path) : FileScan :=
  let relative := file.relativeTo projectRoot
  ⟨file, relative, (source tree file).map fun s =>
    (CallSite.extract l s relative, Import.extract l s relative)⟩

def calls (f : FileScan) : List CallSite :=
  match f.content with
  | .ok (calls, _) => calls
  | .error _ => []

def imports (f : FileScan) : List Import :=
  match f.content with
  | .ok (_, imports) => imports
  | .error _ => []

def warning? (service : String) (f : FileScan) : Option Warning :=
  match f.content with
  | .ok _ => none
  | .error reason => some (.unreadableFile service f.relative reason)

end FileScan

/-- Everything that the files of one service hold. -/
structure Scan where
  service : String
  /-- How many files could be read. -/
  filesScanned : Nat := 0
  /-- The service has files, but none below the subtree that was asked for. -/
  skipped : Bool := false
  calls : List CallSite := []
  imports : List Import := []
  warnings : List Warning := []
  deriving Repr

namespace Scan

def ofFiles (service : String) (files : List FileScan) : Scan where
  service
  filesScanned := (files.filter fun f => f.content.isOk).length
  calls := files.flatMap FileScan.calls
  imports := files.flatMap FileScan.imports
  warnings := files.filterMap (FileScan.warning? service)

end Scan

/-- The files of a service that a scan reads: those below the subtree, if there is one. -/
def Service.filesRead (s : Service) (tree : FileTree) (projectRoot : Path)
    (subtree : Option Path) (files : List Path) : List FileScan :=
  (files.filter fun f => subtree.all f.isUnder).map (.ofFile tree projectRoot s.language)

def Service.scan (s : Service) (tree : FileTree) (projectRoot : Path) (subtree : Option Path)
    (files : List Path) : Scan :=
  if files.isEmpty then { service := s.name, warnings := [.noSourceFiles s.name] }
  else
    let read := s.filesRead tree projectRoot subtree files
    if read.isEmpty then { service := s.name, skipped := true } else .ofFiles s.name read

/-- The scans of all services, in registration order. -/
def Registry.scan (r : Registry) (tree : FileTree) (sources : List (List Path))
    (subtree : Option Path) : List Scan :=
  (r.services.zip sources).map fun (s, files) => s.scan tree r.projectRoot subtree files

end ServiceMap
