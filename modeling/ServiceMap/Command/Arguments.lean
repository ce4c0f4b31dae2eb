import ServiceMap.Config.Settings

/-! The command line: one of the commands and its options, each given at most once. -/

namespace ServiceMap.Command

/-- The options that a command knows. -/
structure Grammar where
  /-- Options that are there or not. -/
  flags : List String
  /-- Options with a value, and which values they take. -/
  valued : List (String × (String → Bool))

/-- What the options say: each option that is given, with its value. -/
abbrev Given := List (String × String)

inductive Reading where
  | given (options : Given)
  | help
  | misuse

namespace Grammar

/-- Whether an argument is an option where a value is looked for. A dash alone is a value. -/
def isOption (arg : String) : Bool := arg.toList.head? = some '-' && arg ≠ "-"

/-- An option of two dashes: its name, and the value after an equals sign. -/
def longOption? (arg : String) : Option (String × Option String) :=
  match arg.toList with
  | '-' :: '-' :: rest =>
    let value := rest.dropWhile (· ≠ '=')
    some (String.ofList (rest.takeWhile (· ≠ '=')),
      if value = [] then none else some (String.ofList (value.drop 1)))
  | _ => none

/-- One option more, if it is not there yet and takes the value. -/
def add? (g : Grammar) (given : Given) (name value : String) : Option Given :=
  if (given.lookup name).isNone && (g.valued.lookup name).all fun takes => takes value then
    some (given ++ [(name, value)])
  else none

/-- Reads options one after the other. The first fault, or a call for help, ends the reading. -/
def read (g : Grammar) (given : Given) : List String → Reading
  | [] => .given given
  | "--" :: rest => if rest.isEmpty then .given given else .misuse
  | arg :: rest =>
    match longOption? arg with
    | none => if ['-', 'h'].isPrefixOf arg.toList then .help else .misuse
    | some (name, attached) =>
      if g.flags.contains name then
        match attached, g.add? given name "" with
        | none, some given => g.read given rest
        | _, _ => .misuse
      else if (g.valued.lookup name).isSome then
        match attached, rest with
        | some value, rest =>
          match g.add? given name value with
          | some given => g.read given rest
          | none => .misuse
        | none, value :: rest =>
          if isOption value then .misuse
          else
            match g.add? given name value with
            | some given => g.read given rest
            | none => .misuse
        | none, [] => .misuse
      else if name = "help" && attached.isNone then .help
      else .misuse

end Grammar

inductive OutputFormat where
  | text
  | json
  deriving DecidableEq, Repr

inductive DiagramFormat where
  | mermaid
  | dot
  deriving DecidableEq, Repr

structure CheckArguments where
  config : Option Path
  /-- Only files below this directory are scanned. -/
  subtree : Option Path
  /-- The checks that are asked for; when there are none the configuration decides. -/
  checks : Checks
  format : OutputFormat
  /-- Where the report goes instead of standard output. -/
  output : Option Path
  diagram : Bool
  diagramFormat : DiagramFormat
  /-- Where the diagram goes. It is drawn then even if it is not asked for. -/
  diagramOutput : Option Path
  deriving DecidableEq, Repr

structure ServicesArguments where
  config : Option Path
  format : OutputFormat
  deriving DecidableEq, Repr

/-- A path may be anything but empty. -/
def takesPath (value : String) : Bool := value ≠ ""

def takesFormat (value : String) : Bool := value = "text" || value = "json"

def takesDiagramFormat (value : String) : Bool := value = "mermaid" || value = "dot"

namespace Given

def has (g : Given) (name : String) : Bool := (g.lookup name).isSome

def path? (g : Given) (name : String) : Option Path := (g.lookup name).map Path.mk

def format (g : Given) : OutputFormat :=
  if g.lookup "format" = some "json" then .json else .text

end Given

namespace CheckArguments

def grammar : Grammar where
  flags := ["boundaries", "circular", "polyglot", "cross-service", "diagram", "quiet"]
  valued := [("config", takesPath), ("path", takesPath), ("format", takesFormat),
    ("output", takesPath), ("diagram-format", takesDiagramFormat), ("diagram-output", takesPath)]

def ofGiven (g : Given) : CheckArguments where
  config := g.path? "config"
  subtree := g.path? "path"
  checks := ⟨g.has "boundaries", g.has "circular", g.has "polyglot", g.has "cross-service"⟩
  format := g.format
  output := g.path? "output"
  diagram := g.has "diagram"
  diagramFormat := if g.lookup "diagram-format" = some "dot" then .dot else .mermaid
  diagramOutput := g.path? "diagram-output"

def wantsDiagram (a : CheckArguments) : Bool := a.diagram || a.diagramOutput.isSome

/-- The checks that run. -/
def checksOr (a : CheckArguments) (configured : Checks) : Checks :=
  if a.checks.any then a.checks else configured

end CheckArguments

namespace ServicesArguments

def grammar : Grammar := ⟨[], [("config", takesPath), ("format", takesFormat)]⟩

def ofGiven (g : Given) : ServicesArguments := ⟨g.path? "config", g.format⟩

end ServicesArguments

inductive Invocation where
  | check (a : CheckArguments)
  | services (a : ServicesArguments)
  | version
  | help
  | misuse
  deriving DecidableEq, Repr

namespace Invocation

def ofReading (command : Given → Invocation) : Reading → Invocation
  | .given options => command options
  | .help => help
  | .misuse => misuse

def commands : List String := ["check", "services", "help"]

def ofArguments : List String → Invocation
  | "check" :: rest =>
    ofReading (fun g => check (.ofGiven g)) (CheckArguments.grammar.read [] rest)
  | "services" :: rest =>
    ofReading (fun g => services (.ofGiven g)) (ServicesArguments.grammar.read [] rest)
  | ["help"] => help
  | ["help", command] => if commands.contains command then help else misuse
  | "--version" :: _ => version
  | "--help" :: _ => help
  | arg :: _ =>
    if ['-', 'V'].isPrefixOf arg.toList then version
    else if ['-', 'h'].isPrefixOf arg.toList then help
    else misuse
  | [] => misuse

end Invocation
end ServiceMap.Command
