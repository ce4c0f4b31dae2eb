import ServiceMap.Error

/-! The settings of a run: a configuration file, where it was found, and its defaults filled in. -/

namespace ServiceMap

/-- Which of the four checks run. -/
structure Checks where
  boundaries : Bool
  circular : Bool
  polyglot : Bool
  crossService : Bool
  deriving DecidableEq, Repr

namespace Checks

def all : Checks := ⟨true, true, true, true⟩

def none : Checks := ⟨false, false, false, false⟩

def any (c : Checks) : Bool := c.boundaries || c.circular || c.polyglot || c.crossService

end Checks

structure Settings where
  /-- The directory of the configuration file. Service roots are relative to it. -/
  projectRoot : Path
  configPath : Path
  /-- The checks that run when none is asked for. -/
  checks : Checks
  /-- Globs that are left out of every service. -/
  exclude : List String
  includeTests : Bool
  services : List Config.ServiceEntry
  deriving DecidableEq, Repr

namespace Settings

/-- A check runs unless it is turned off, and tests are left out unless they are asked for. -/
def ofFile (file : Config.File) (projectRoot configPath : Path) : Settings where
  projectRoot
  configPath
  checks := {
    boundaries := file.analysis.boundaries.getD true
    circular := file.analysis.circular.getD true
    polyglot := file.analysis.polyglot.getD true
    crossService := file.analysis.crossService.getD true }
  exclude := file.scan.exclude
  includeTests := file.scan.includeTests.getD false
  services := file.services

def fileName : Path := ⟨".crossdeps.toml"⟩

/-- The directory itself and those above it, up to `n` of them. -/
def lineage : Nat → Path → List Path
  | 0, dir => [dir]
  | n + 1, dir =>
    match dir.parent? with
    | none => [dir]
    | some above => dir :: lineage n above

/-- The nearest configuration file in `dir` or above it. -/
def nearest? (tree : FileTree) (dir : Path) : Option Path :=
  ((lineage dir.components.length dir).map (·.join fileName)).find? tree.exists?

/-- Reads the configuration file that is named, as seen from `dir`, or else the nearest one. -/
def load (tree : FileTree) (dir : Path) (named : Option Path) : Except Error Settings := do
  let path ← match named.or (nearest? tree dir) with
    | some path => pure path
    | none => throw (.noConfig dir)
  let place := dir.join path
  let source ← (tree.readText place).mapError fun e => .invalidConfig path (.unreadable e)
  let file ← (Config.File.ofText source).mapError fun e => .invalidConfig path (.text e)
  let configPath := match tree.canonical place with
    | .ok p => p
    | .error _ => path
  return ofFile file (configPath.parent?.getD ⟨"."⟩) configPath

end Settings
end ServiceMap
