import ServiceMap.Text.Quoted
import ServiceMap.Toml.Document

/-! What a configuration file says, read from the tables of its text. A table with fixed fields may
also be given as an array with the fields in order. -/

namespace ServiceMap

/-- Strength of a declared dependency. -/
inductive Requirement where
  | required
  | optional
  deriving DecidableEq, Repr, Inhabited

namespace Requirement

def name : Requirement → String
  | required => "required"
  | optional => "optional"

def ofName? (s : String) : Option Requirement := [required, optional].find? (·.name = s)

end Requirement

namespace Config

/-- Why a table does not fit what is expected in its place. -/
inductive SchemaError where
  | wrongType (found expected : String)
  | unknownField (field : String) (known : List String)
  | missingField (field : String)
  | tooFewItems (count : Nat) (expected : String)
  | noSuchForm (expected : String)
  deriving Repr

namespace SchemaError

def fieldList (known : List String) : String :=
  match known.map fun k => s!"`{k}`" with
  | [] => "there are no fields"
  | [a] => s!"expected {a}"
  | [a, b] => s!"expected {a} or {b}"
  | all => "expected one of " ++ ", ".intercalate all

def message : SchemaError → String
  | wrongType found expected => s!"invalid type: {found}, expected {expected}"
  | unknownField field known => s!"unknown field `{field}`, {fieldList known}"
  | missingField field => s!"missing field `{field}`"
  | tooFewItems count expected => s!"invalid length {count}, expected {expected}"
  | noSuchForm expected => s!"data did not match any variant of {expected}"

end SchemaError

/-- What a value is, for a reader who expected something else. -/
def describe : Toml.Value → String
  | .string s => s!"string {Text.quoted s}"
  | .integer i => s!"integer `{i}`"
  | .float x => s!"floating point `{x.text}`"
  | .boolean b => s!"boolean `{b}`"
  | .datetime _ => "map"
  | .array _ => "sequence"
  | .table _ => "map"

/-- The keys and values of a table. A date or time reads as a table with one key of its own. -/
def entries? : Toml.Value → Option Toml.Entries
  | .table entries => some entries
  | .datetime text => some [("$__toml_private_datetime", .string text)]
  | _ => none

abbrev Decoded := Except SchemaError

def text : Toml.Value → Decoded String
  | .string s => .ok s
  | v => .error (.wrongType (describe v) "a string")

def flag : Toml.Value → Decoded Bool
  | .boolean b => .ok b
  | v => .error (.wrongType (describe v) "a boolean")

def list {α : Type} (item : Toml.Value → Decoded α) : Toml.Value → Decoded (List α)
  | .array items => items.mapM item
  | v => .error (.wrongType (describe v) "a sequence")

/-- A table with fixed fields. `set` takes up one field; `optional` fields may be left out where the
fields are given in order. -/
structure Shape (α : Type) where
  label : String
  fields : List String
  optional : List String
  start : α
  set : α → String → Toml.Value → Decoded α

namespace Shape

def setKnown {α : Type} (shape : Shape α) (a : α) (entry : String × Toml.Value) : Decoded α :=
  if shape.fields.contains entry.1 then shape.set a entry.1 entry.2
  else .error (.unknownField entry.1 shape.fields)

/-- The fields in order, as long as there are items. Items after the last field are passed over. -/
def setInOrder {α : Type} (shape : Shape α) : List String → List Toml.Value → α → Decoded α
  | [], _, a => .ok a
  | f :: fs, [], a =>
    if shape.optional.contains f then shape.setInOrder fs [] a
    else
      let size := shape.fields.length
      .error (.tooFewItems (size - (fs.length + 1)) s!"{shape.label} with {size} elements")
  | f :: fs, v :: vs, a => (shape.set a f v).bind (shape.setInOrder fs vs)

def decode {α : Type} (shape : Shape α) (v : Toml.Value) : Decoded α :=
  match entries? v, v with
  | some entries, _ => entries.foldlM shape.setKnown shape.start
  | none, .array items => shape.setInOrder shape.fields items shape.start
  | none, v => .error (.wrongType (describe v) shape.label)

end Shape

/-- The `[analysis]` table: which checks run when none is asked for. -/
structure Analysis where
  boundaries : Option Bool := none
  circular : Option Bool := none
  polyglot : Option Bool := none
  crossService : Option Bool := none
  deriving DecidableEq, Repr

namespace Analysis

def set (a : Analysis) (field : String) (v : Toml.Value) : Decoded Analysis := do
  match field with
  | "boundaries" => return { a with boundaries := ← flag v }
  | "circular" => return { a with circular := ← flag v }
  | "polyglot" => return { a with polyglot := ← flag v }
  | _ => return { a with crossService := ← flag v }

def shape : Shape Analysis where
  label := "struct AnalysisFileConfig"
  fields := ["boundaries", "circular", "polyglot", "cross_service"]
  optional := []
  start := {}
  set := set

end Analysis

/-- The `[scan]` table: what is left out of every service, and whether tests are sources. -/
structure ScanOptions where
  exclude : List String := []
  includeTests : Option Bool := none
  deriving DecidableEq, Repr

namespace ScanOptions

def set (s : ScanOptions) (field : String) (v : Toml.Value) : Decoded ScanOptions := do
  match field with
  | "exclude" => return { s with exclude := ← list text v }
  | _ => return { s with includeTests := ← flag v }

def shape : Shape ScanOptions where
  label := "struct ScanFileConfig"
  fields := ["exclude", "include_tests"]
  optional := ["exclude"]
  start := {}
  set := set

end ScanOptions

/-- A dependency as it is declared: a name alone, or a table. -/
inductive Declaration where
  | named (service : String)
  | detailed (service : String) (requirement : Requirement)
  deriving DecidableEq, Repr

namespace Declaration

def service : Declaration → String
  | named s => s
  | detailed s _ => s

/-- A name alone declares a required dependency. -/
def requirement : Declaration → Requirement
  | named _ => .required
  | detailed _ r => r

/-- A table needs its service and may leave out the requirement. Other keys are passed over. -/
def ofEntries? (entries : Toml.Entries) : Option Declaration :=
  match entries.lookup "service", entries.lookup "requirement" with
  | some (.string s), none => some (.detailed s .required)
  | some (.string s), some (.string r) => (Requirement.ofName? r).map (.detailed s)
  | _, _ => none

def decode (v : Toml.Value) : Decoded Declaration :=
  match v with
  | .string s => .ok (.named s)
  | v =>
    match (entries? v).bind ofEntries? with
    | some d => .ok d
    | none => .error (.noSuchForm "untagged enum DependencyFileConfig")

end Declaration

/-- A `[[services]]` entry. -/
structure ServiceEntry where
  name : String
  language : String
  root : String
  includeGlobs : List String
  excludeGlobs : List String
  provides : List String
  consumes : List String
  dependsOn : List Declaration
  deriving DecidableEq, Repr

/-- A `[[services]]` entry of which only some fields have been read. -/
structure PartialEntry where
  name : Option String := none
  language : Option String := none
  root : Option String := none
  includeGlobs : List String := []
  excludeGlobs : List String := []
  provides : List String := []
  consumes : List String := []
  dependsOn : List Declaration := []

namespace PartialEntry

def set (e : PartialEntry) (field : String) (v : Toml.Value) : Decoded PartialEntry := do
  match field with
  | "name" => return { e with name := ← text v }
  | "language" => return { e with language := ← text v }
  | "root" => return { e with root := ← text v }
  | "include" => return { e with includeGlobs := ← list text v }
  | "exclude" => return { e with excludeGlobs := ← list text v }
  | "provides" => return { e with provides := ← list text v }
  | "consumes" => return { e with consumes := ← list text v }
  | _ => return { e with dependsOn := ← list Declaration.decode v }

def shape : Shape PartialEntry where
  label := "struct ServiceFileConfig"
  fields :=
    ["name", "language", "root", "include", "exclude", "provides", "consumes", "depends_on"]
  optional := ["include", "exclude", "provides", "consumes", "depends_on"]
  start := {}
  set := set

def require (field : String) : Option String → Decoded String
  | some s => .ok s
  | none => .error (.missingField field)

def finish (e : PartialEntry) : Decoded ServiceEntry := do
  let name ← require "name" e.name
  let language ← require "language" e.language
  let root ← require "root" e.root
  return ⟨name, language, root, e.includeGlobs, e.excludeGlobs, e.provides, e.consumes, e.dependsOn⟩

end PartialEntry

def ServiceEntry.decode (v : Toml.Value) : Decoded ServiceEntry := do
  (← PartialEntry.shape.decode v).finish

/-- A configuration file. -/
structure File where
  analysis : Analysis := {}
  scan : ScanOptions := {}
  /-- In the order in which the services are registered. -/
  services : List ServiceEntry := []
  deriving DecidableEq, Repr

namespace File

def set (f : File) (field : String) (v : Toml.Value) : Decoded File := do
  match field with
  | "analysis" => return { f with analysis := ← Analysis.shape.decode v }
  | "scan" => return { f with scan := ← ScanOptions.shape.decode v }
  | _ => return { f with services := ← list ServiceEntry.decode v }

def shape : Shape File where
  label := "struct FileConfig"
  fields := ["analysis", "scan", "services"]
  optional := ["analysis", "scan", "services"]
  start := {}
  set := set

end File

/-- Why a text is no configuration. -/
inductive TextError where
  | notToml
  | schema (e : SchemaError)
  deriving Repr

def File.ofText (source : String) : Except TextError File :=
  match Toml.parse? source with
  | none => .error .notToml
  | some entries => (File.shape.decode (.table entries)).mapError .schema

end Config
end ServiceMap
