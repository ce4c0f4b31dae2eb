import ServiceMap.Path.Name
import ServiceMap.Writing

/-! JSON values and how they are written: an item or field a line, two blanks deeper at each
level. -/

namespace ServiceMap

inductive Json where
  | bool (b : Bool)
  | num (n : Nat)
  | str (s : String)
  /-- Stands where a text belongs and there is none; nothing can be written for it. -/
  | unspelt
  | arr (items : List Json)
  /-- The fields in the order in which they are written. -/
  | obj (fields : List (String × Json))
  deriving Inhabited

namespace Json

def strings (l : List String) : Json := .arr (l.map .str)

/-- Four digits. -/
def hex4 (n : Nat) : List Char :=
  let digits := Nat.toDigits 16 n
  List.replicate (4 - digits.length) '0' ++ digits

/-- Only quotes, backslashes and the characters before the blank are escaped. -/
def escaped (c : Char) : List Char :=
  if c = '"' then ['\\', '"']
  else if c = '\\' then ['\\', '\\']
  else if c = '\n' then ['\\', 'n']
  else if c = '\r' then ['\\', 'r']
  else if c = '\t' then ['\\', 't']
  else if c = '\x08' then ['\\', 'b']
  else if c = '\x0c' then ['\\', 'f']
  else if c.toNat < 0x20 then ['\\', 'u'] ++ hex4 c.toNat
  else [c]

def quoted (s : String) : String := "\"" ++ String.ofList (s.toList.flatMap escaped) ++ "\""

/-- A new line, indented for a level. -/
def newline (level : Nat) : String := "\n" ++ String.ofList (List.replicate (2 * level) ' ')

/-- The text of a path, if it is one. -/
def path {P : Type} [FileName P] (p : P) : Json :=
  match FileName.text? p with
  | some s => .str s
  | none => .unspelt

open Writing

mutual

def write (level : Nat) : Json → Writing Unit
  | bool b => token (if b then "true" else "false")
  | num n => token (toString n)
  | str s => token (quoted s)
  | unspelt => throw (.json .notText)
  | arr [] => token "[]"
  | arr (j :: items) => do
    token ("[" ++ newline (level + 1))
    j.write (level + 1)
    writeItems (level + 1) items
    token (newline level ++ "]")
  | obj [] => token "\x7b\x7d"
  | obj ((name, j) :: fields) => do
    token ("\x7b" ++ newline (level + 1))
    token (quoted name ++ ": ")
    j.write (level + 1)
    writeFields (level + 1) fields
    token (newline level ++ "\x7d")

/-- The items after the first. -/
def writeItems (level : Nat) : List Json → Writing Unit
  | [] => return
  | j :: items => do
    token ("," ++ newline level)
    j.write level
    writeItems level items

/-- The fields after the first. -/
def writeFields (level : Nat) : List (String × Json) → Writing Unit
  | [] => return
  | (name, j) :: fields => do
    token ("," ++ newline level)
    token (quoted name ++ ": ")
    j.write level
    writeFields level fields

end

/-- The document and a line feed, which is no part of it. -/
def writeDocument (j : Json) : Writing Unit := do
  j.write 0
  line ""

end Json
end ServiceMap
