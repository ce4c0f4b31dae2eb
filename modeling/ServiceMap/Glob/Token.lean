/-! Globs, as the sequence of things that they match. -/

namespace ServiceMap.Glob

inductive Token where
  | literal (c : Char)
  /-- `?`: one byte. -/
  | any
  /-- `*`: any run of bytes. -/
  | star
  /-- `**` and a slash in front: any directories above, or none. -/
  | leadingDirs
  /-- `**` between slashes: any directories between, or none. -/
  | innerDirs
  /-- A slash and `**` at the end: everything below. -/
  | allBelow
  | cls (negated : Bool) (ranges : List (Char × Char))
  | choice (branches : List (List Token))
  deriving Inhabited

inductive Fault where
  | unclosedClass
  | invalidRange (first last : Char)
  | unopenedGroup
  | unclosedGroup
  | danglingEscape
  deriving DecidableEq, Repr

def Fault.message : Fault → String
  | unclosedClass => "unclosed character class; missing ']'"
  | invalidRange a b => s!"invalid range; '{a}' > '{b}'"
  | unopenedGroup =>
    "unopened alternate group; missing '\x7b' (maybe escape '\x7d' with '[\x7d]'?)"
  | unclosedGroup =>
    "unclosed alternate group; missing '\x7d' (maybe escape '\x7b' with '[\x7b]'?)"
  | danglingEscape => "dangling '\\'"

/-- What a pattern means beyond its text. -/
structure Dialect where
  /-- `*` and `?` stay within one component. -/
  keepsToComponent : Bool
  /-- A bracket that opens a class and is never closed stands for itself. -/
  allowsLoneBracket : Bool

end ServiceMap.Glob
