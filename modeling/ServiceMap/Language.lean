/-! The languages in which a service can be written. -/

namespace ServiceMap

inductive Language where
  | typescript
  | python
  | go
  | ruby
  deriving DecidableEq, Repr, Inhabited

namespace Language

def all : List Language := [typescript, python, go, ruby]

theorem mem_all (l : Language) : l ∈ all := by cases l <;> decide

/-- The order in which languages are listed. -/
def rank : Language → Nat
  | typescript => 0
  | python => 1
  | go => 2
  | ruby => 3

instance : Ord Language := ⟨compareOn rank⟩

def name : Language → String
  | typescript => "typescript"
  | python => "python"
  | go => "go"
  | ruby => "ruby"

instance : ToString Language := ⟨name⟩

/-- The spellings that a configuration may use, case aside. -/
def spellings : Language → List String
  | typescript => ["typescript", "ts", "javascript", "js"]
  | python => ["python", "py"]
  | go => ["go", "golang"]
  | ruby => ["ruby", "rb"]

/-- Every spelling is ASCII and no other character has one of its letters as lower case, so folding
A to Z is enough. -/
def ofName? (s : String) : Option Language :=
  all.find? fun l => l.spellings.contains (s.map Char.toLower)

def extensions : Language → List String
  | typescript => ["ts", "tsx", "js", "jsx", "mjs", "cjs"]
  | python => ["py"]
  | go => ["go"]
  | ruby => ["rb"]

def ofExtension? (ext : String) : Option Language := all.find? fun l => l.extensions.contains ext

/-- Globs on the file names of test sources. -/
def testGlobs : Language → List String
  | typescript => ["*.test.ts", "*.spec.ts", "*.test.js", "*.spec.js"]
  | python => ["test_*.py", "*_test.py"]
  | go => ["*_test.go"]
  | ruby => ["*_spec.rb"]

end Language
end ServiceMap
