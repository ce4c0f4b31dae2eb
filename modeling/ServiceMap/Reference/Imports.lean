import ServiceMap.Reference.Rule

/-! The rules for imports. -/

namespace ServiceMap

open Pattern CharClass

namespace TypeScript

def imports : List Rule := [
  ⟨"ts-import", .plainImport,
    wordEdge ++ lit "import" ++ blanks1 ++
      opt (some1 (union (wordOr "*\x7b\x7d,") blank) ++ blanks1 ++ lit "from" ++ blanks1) ++
      quotedTarget "'\""⟩,
  ⟨"ts-import-from", .plainImport, wordEdge ++ lit "from" ++ blanks1 ++ quotedTarget "'\""⟩,
  ⟨"ts-require", .plainImport,
    wordEdge ++ lit "require" ++ openParen ++ quotedTarget "'\"" ++ blanks ++ lit ")"⟩]

end TypeScript

namespace Python

def imports : List Rule := [
  ⟨"py-from-import", .plainImport,
    lineStart ++ blanks ++ lit "from" ++ blanks1 ++
      target (either (some1 (of ".") ++ many (wordOr ".")) (some1 (wordOr "."))) ++
      blanks1 ++ lit "import" ++ wordEdge⟩,
  ⟨"py-import", .plainImport,
    lineStart ++ blanks ++ lit "import" ++ blanks1 ++ target (some1 (wordOr "."))⟩]

end Python

namespace Go

/-- A name given to the package, in front of its path. -/
def packageAlias : Pattern := opt (some1 (wordOr ".") ++ blanks1)

def imports : List Rule := [
  ⟨"go-import", .plainImport,
    lineStart ++ blanks ++ lit "import" ++ blanks1 ++ packageAlias ++ quotedTarget "\""⟩,
  ⟨"go-import-block-entry", .plainImport,
    lineStart ++ blanks ++ packageAlias ++ lit "\"" ++ target (some1 (wordOr "./-")) ++ lit "\"" ++
      blanks ++ lineEnd⟩]

end Go

namespace Ruby

def imports : List Rule := [
  ⟨"rb-require-relative", .relativeImport,
    lineStart ++ blanks ++ lit "require_relative" ++ maybeParen ++ quotedTarget "\"'"⟩,
  ⟨"rb-require", .plainImport,
    lineStart ++ blanks ++ lit "require" ++ maybeParen ++ quotedTarget "\"'"⟩]

end Ruby

def Language.importRules : Language → List Rule
  | .typescript => TypeScript.imports
  | .python => Python.imports
  | .go => Go.imports
  | .ruby => Ruby.imports

end ServiceMap
