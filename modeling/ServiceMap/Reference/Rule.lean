import ServiceMap.Language
import ServiceMap.Pattern

/-! Rules that recognise a call or an import in a line of source text. -/

namespace ServiceMap

inductive RuleKind where
  /-- An outgoing call; the target is a URL, a path or an API name. -/
  | call
  /-- An import, relative when its target starts with a dot. -/
  | plainImport
  /-- An import that is always relative to the importing file. -/
  | relativeImport
  deriving DecidableEq, Repr

namespace RuleKind

def name : RuleKind → String
  | call => "call"
  | plainImport => "import"
  | relativeImport => "relative_import"

end RuleKind

structure Rule where
  name : String
  kind : RuleKind
  pattern : Pattern

/-- How a line of comment starts, after white space. -/
def Language.commentMarks : Language → List String
  | .typescript | .go => ["//", "/*", "*"]
  | .python | .ruby => ["#"]

/-! Parts that the rules share. -/

namespace Pattern

/-- A quoted target. Any of the quotes closes it. -/
def quotedTarget (quotes : String) : Pattern :=
  one (.of quotes) ++ target (some1 (.noneOf quotes)) ++ one (.of quotes)

/-- A quoted target that starts with a slash. -/
def quotedPath (quotes : String) : Pattern :=
  one (.of quotes) ++ target (lit "/" ++ many (.noneOf quotes)) ++ one (.of quotes)

def openParen : Pattern := blanks ++ lit "(" ++ blanks

def maybeParen : Pattern := blanks ++ opt (lit "(") ++ blanks

/-- A word with one of `parts` in it. -/
def wordWith (parts : List Pattern) : Pattern := many .word ++ firstOf parts ++ many .word

/-- A word that speaks of a base URL, and a plus sign. -/
def baseUrlPlus : Pattern :=
  wordEdge ++ wordWith (["URL", "Url", "url", "BASE", "Base", "base"].map lit) ++ blanks ++
    lit "+" ++ blanks

end Pattern
end ServiceMap
