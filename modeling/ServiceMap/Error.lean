import ServiceMap.Config.Schema
import ServiceMap.Files.Tree
import ServiceMap.Glob.Token

/-! What can end a run before its report is written. -/

namespace ServiceMap

/-- Why a configuration file is of no use. -/
inductive Config.Fault where
  | unreadable (e : IoFault)
  | text (e : TextError)
  deriving Repr

namespace Config.Fault

def message : Fault → String
  | unreadable e => s!"could not read file: {e.message}"
  | text .notToml => "the text is not TOML"
  | text (.schema e) => e.message

end Config.Fault

/-- Why a JSON document could not be written in full. -/
inductive JsonFault where
  | io (e : IoFault)
  /-- A path is no text. -/
  | notText
  deriving DecidableEq, Repr

def JsonFault.message : JsonFault → String
  | io e => e.message
  | notText => "path contains invalid UTF-8 characters"

inductive Error where
  /-- No configuration file in the directory or above it. -/
  | noConfig (dir : Path)
  | invalidConfig (file : Path) (fault : Config.Fault)
  | duplicateService (name : String)
  | unknownLanguage (service language : String)
  | unknownDependency (service missing : String)
  /-- Two services select one file. -/
  | overlap (file : Path) (first second : String)
  /-- The subtree that was asked for cannot be reached. -/
  | inaccessible (subtree : Path) (e : IoFault)
  | glob (pattern : String) (fault : Glob.Fault)
  | io (e : IoFault)
  | json (e : JsonFault)
  deriving Repr

namespace Error

def message : Error → String
  | noConfig dir => s!"No .crossdeps.toml found in {dir.text} or any parent directory"
  | invalidConfig file fault => s!"Invalid config file {file.text}: {fault.message}"
  | duplicateService name => s!"Service `{name}` is registered more than once"
  | unknownLanguage service language =>
    s!"Service `{service}` declares unsupported language `{language}`"
  | unknownDependency service missing =>
    s!"Service `{service}` depends on unknown service `{missing}`"
  | overlap file first second =>
    s!"{file.text} is matched by the source selectors of both `{first}` and `{second}`"
  | inaccessible subtree e =>
    s!"Configuration error: --path {subtree.text} is not accessible: {e.message}"
  | glob pattern fault => s!"error parsing glob '{pattern}': {fault.message}"
  | io e => e.message
  | json e => e.message

def code : Error → String
  | noConfig _ => "crossdeps::config::not_found"
  | invalidConfig _ _ => "crossdeps::config::invalid"
  | duplicateService _ => "crossdeps::config::duplicate_service"
  | unknownLanguage _ _ => "crossdeps::config::unknown_language"
  | unknownDependency _ _ => "crossdeps::config::unknown_dependency"
  | overlap _ _ _ => "crossdeps::config::overlapping_selectors"
  | inaccessible _ _ => "crossdeps::config"
  | glob _ _ => "crossdeps::glob"
  | io _ => "crossdeps::io"
  | json _ => "crossdeps::json"

/-- Whether the configuration is at fault, so that nothing has been analysed. -/
def isConfig : Error → Bool
  | io _ | json _ => false
  | _ => true

end Error
end ServiceMap
