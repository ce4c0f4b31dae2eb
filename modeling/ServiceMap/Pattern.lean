import ServiceMap.Text.Blank
import ServiceMap.Text.Word

/-! Patterns on one line of text, with a marked part, the target. Of two ways to match at one place
the earlier alternative wins, and repetition takes as much as it can; a pattern repeats single
characters only, so that matching ends by recursion on the line. -/

namespace ServiceMap

inductive CharClass where
  | chars (cs : List Char)
  | range (first last : Char)
  | word
  | blank
  | union (a b : CharClass)
  | except (a : CharClass)

namespace CharClass

def contains : CharClass → Char → Bool
  | chars cs, c => cs.contains c
  | range a b, c => a.toNat ≤ c.toNat && c.toNat ≤ b.toNat
  | word, c => Text.isWord c
  | blank, c => Text.isBlank c
  | union a b, c => a.contains c || b.contains c
  | except a, c => !a.contains c

def of (s : String) : CharClass := chars s.toList

def noneOf (s : String) : CharClass := except (of s)

def wordOr (s : String) : CharClass := union word (of s)

def letter : CharClass := union (range 'A' 'Z') (range 'a' 'z')

end CharClass

inductive Pattern where
  | empty
  | one (c : CharClass)
  | many (c : CharClass)
  | seq (p q : Pattern)
  | either (p q : Pattern)
  | wordEdge
  | lineStart
  | lineEnd
  | target (p : Pattern)

/-- A part of a line, by columns; `stop` is the column after the last one. -/
structure Span where
  start : Nat
  stop : Nat
  deriving DecidableEq, Repr

namespace Span

def overlaps (a b : Span) : Bool := a.start < b.stop && b.start < a.stop

def slice (s : Span) (line : List Char) : List Char := (line.drop s.start).take (s.stop - s.start)

end Span

namespace Pattern

instance : Append Pattern := ⟨seq⟩

def lit (s : String) : Pattern := s.toList.foldr (fun c p => one (.chars [c]) ++ p) empty

def opt (p : Pattern) : Pattern := either p empty

def some1 (c : CharClass) : Pattern := one c ++ many c

/-- The first of `ps` that leads to a match. -/
def firstOf : List Pattern → Pattern
  | [] => one (.chars [])
  | [p] => p
  | p :: ps => either p (firstOf ps)

def anyOf (words : List String) : Pattern := firstOf (words.map lit)

def blanks : Pattern := many .blank

def blanks1 : Pattern := some1 .blank

/-- A place in a line: the character before it, what follows, and the target so far. -/
structure Cursor where
  before : Option Char
  rest : List Char
  column : Nat
  target : Option Span

namespace Cursor

def atWordEdge (c : Cursor) : Bool := c.before.any Text.isWord != c.rest.head?.any Text.isWord

end Cursor

/-- As many characters of the class as lead to a match of what follows. -/
def runMany {α : Type} (cls : CharClass) (k : Cursor → Option α) (t : Option Span) :
    Option Char → List Char → Nat → Option α
  | b, [], n => k ⟨b, [], n, t⟩
  | b, x :: r, n =>
    if cls.contains x then
      match runMany cls k t (some x) r (n + 1) with
      | some a => some a
      | none => k ⟨b, x :: r, n, t⟩
    else k ⟨b, x :: r, n, t⟩

/-- The first match of `p` at the cursor that what follows, `k`, accepts. -/
def run {α : Type} : Pattern → (Cursor → Option α) → Cursor → Option α
  | empty, k, c => k c
  | one cls, k, c =>
    match c.rest with
    | [] => none
    | x :: r => if cls.contains x then k ⟨some x, r, c.column + 1, c.target⟩ else none
  | many cls, k, c => runMany cls k c.target c.before c.rest c.column
  | seq p q, k, c => p.run (q.run k) c
  | either p q, k, c =>
    match p.run k c with
    | some a => some a
    | none => q.run k c
  | wordEdge, k, c => if c.atWordEdge then k c else none
  | lineStart, k, c => if c.before.isNone then k c else none
  | lineEnd, k, c => if c.rest.isEmpty then k c else none
  | target p, k, c => p.run (fun d => k { d with target := some ⟨c.column, d.column⟩ }) c

/-- The targets of the matches from a place on, left to right. No match starts before column
`free`, where the last one ended. -/
def targetsFrom (p : Pattern) (free : Nat) : Option Char → List Char → Nat → List Span
  | b, rest, n =>
    let found := if n < free then none else p.run some ⟨b, rest, n, none⟩
    let next := match found with
      | some d => d.column
      | none => free
    (found.bind Cursor.target).toList ++
      match rest with
      | [] => []
      | x :: r => targetsFrom p next (some x) r (n + 1)

def targets (p : Pattern) (line : List Char) : List Span := p.targetsFrom 0 none line 0

end Pattern
end ServiceMap
