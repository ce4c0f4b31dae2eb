import ServiceMap.Order
import ServiceMap.Path
import ServiceMap.Reference.Calls
import ServiceMap.Reference.Imports
import ServiceMap.Target

/-! The calls and imports that the rules find in a source text. A line is looked at by itself: no
finding depends on another line. -/

namespace ServiceMap

/-- All rules of a language, in the order in which they are tried. -/
def Language.rules (l : Language) : List Rule := l.callRules ++ l.importRules

/-- A target that a rule has marked, with its place in the text; lines count from one. -/
structure Finding where
  line : Nat
  span : Span
  text : List Char
  rule : Rule

namespace Finding

/-- One more marked span of a line. It is passed over when it meets a span that is already taken,
or has nothing in it but placeholders. -/
def take (number : Nat) (line : List Char) (rule : Rule) (taken : List Finding) (s : Span) :
    List Finding :=
  if taken.any (fun f => f.span.overlaps s) || !Target.hasLiteral (s.slice line) then taken
  else taken ++ [⟨number, s, s.slice line, rule⟩]

/-- What the rules, each after the ones before it, take from a line. -/
def taken (rules : List Rule) (number : Nat) (line : List Char) : List Finding :=
  rules.foldl (fun acc rule => (rule.pattern.targets line).foldl (take number line rule) acc) []

def isComment (marks : List String) (line : List Char) : Bool :=
  marks.any fun mark => mark.toList.isPrefixOf (Text.trimStart line)

/-- The findings of a line, left to right. -/
def ofLine (marks : List String) (rules : List Rule) (number : Nat) (line : List Char) :
    List Finding :=
  if isComment marks line then []
  else sortBy (compareOn fun f => f.span.start) (taken rules number line)

def ofText (marks : List String) (rules : List Rule) (source : String) : List Finding :=
  ((Text.lines source.toList).zipIdx 1).flatMap fun (line, number) => ofLine marks rules number line

end Finding

/-- The API that a call reaches, and the service that provides it. -/
structure Resolution where
  provider : String
  api : String
  deriving DecidableEq, Repr

/-- `P` is what files are named by. -/
structure CallSite (P : Type := Path) where
  file : P
  line : Nat
  target : String
  rule : String
  resolution : Option Resolution
  deriving DecidableEq, Repr

structure Import where
  file : Path
  line : Nat
  target : String
  kind : RuleKind
  deriving DecidableEq, Repr

/-- The calls in a file's text, not yet resolved. -/
def CallSite.extract (l : Language) (source : String) (file : Path) : List CallSite :=
  (Finding.ofText l.commentMarks l.callRules source).map fun f =>
    ⟨file, f.line, String.ofList f.text, f.rule.name, none⟩

def Import.extract (l : Language) (source : String) (file : Path) : List Import :=
  (Finding.ofText l.commentMarks l.importRules source).map fun f =>
    ⟨file, f.line, String.ofList f.text, f.rule.kind⟩

end ServiceMap
