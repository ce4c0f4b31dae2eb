import ServiceMap.Text.Blank
import ServiceMap.Toml.Value

/-! How strings, numbers, dates and keys are written in TOML. A reader takes what it reads from the
front of the text and gives the rest, or fails. -/

namespace ServiceMap.Toml

abbrev Reader (α : Type) := List Char → Option (α × List Char)

def isSpace (c : Char) : Bool := c = ' ' || c = '\t'

def skipSpace (s : List Char) : List Char := s.dropWhile isSpace

def newline? : List Char → Option (List Char)
  | '\n' :: r => some r
  | '\r' :: '\n' :: r => some r
  | _ => none

/-- Characters that may stand in a comment or a literal string: all but controls. -/
def isPlain (c : Char) : Bool := c = '\t' || (0x20 ≤ c.toNat && c.toNat ≠ 0x7F)

def skipComment : List Char → List Char
  | '#' :: r => r.dropWhile isPlain
  | s => s

/-- The end of a line after space and a comment, or the end of the text. -/
def lineEnd? (s : List Char) : Option (List Char) :=
  match skipComment (skipSpace s) with
  | [] => some []
  | r => newline? r

/-- Drops space, line ends and whole comments, at most `n` of them. -/
def skipGapFrom : Nat → List Char → List Char
  | 0, s => s
  | _, [] => []
  | n + 1, c :: r =>
    if isSpace c then skipGapFrom n r
    else match newline? (skipComment (c :: r)) with
      | some r => skipGapFrom n r
      | none => c :: r

def skipGap (s : List Char) : List Char := skipGapFrom s.length s

/-! ## Strings -/

def hexValue? (c : Char) : Option Nat :=
  if c.isDigit then some (c.toNat - '0'.toNat)
  else if 'a' ≤ c && c ≤ 'f' then some (c.toNat - 'a'.toNat + 10)
  else if 'A' ≤ c && c ≤ 'F' then some (c.toNat - 'A'.toNat + 10)
  else none

/-- The character whose number the `n` digits in front give. -/
def hexChar (n : Nat) : Reader Char := fun s =>
  let digits := (s.take n).filterMap hexValue?
  let code := digits.foldl (fun a d => 16 * a + d) 0
  if digits.length = n && Nat.isValidChar code then some (Char.ofNat code, s.drop n) else none

/-- What stands after a backslash. -/
def escape : Reader Char
  | 'b' :: r => some ('\x08', r)
  | 't' :: r => some ('\t', r)
  | 'n' :: r => some ('\n', r)
  | 'f' :: r => some ('\x0c', r)
  | 'r' :: r => some ('\r', r)
  | '"' :: r => some ('"', r)
  | '\\' :: r => some ('\\', r)
  | 'u' :: r => hexChar 4 r
  | 'U' :: r => hexChar 8 r
  | _ => none

/-- One more thing in front of what was read. -/
def after (front : List Char) : Option (List Char × List Char) → Option (List Char × List Char)
  | some (text, rest) => some (front ++ text, rest)
  | none => none

/-- A basic string up to its closing quote, of at most `n` pieces. -/
def basicFrom : Nat → Reader (List Char)
  | 0, _ => none
  | _, [] => none
  | _, '"' :: r => some ([], r)
  | n + 1, '\\' :: r =>
    match escape r with
    | some (c, r) => after [c] (basicFrom n r)
    | none => none
  | n + 1, c :: r => if isPlain c then after [c] (basicFrom n r) else none

def basic : Reader String
  | '"' :: r => (basicFrom (r.length + 1) r).map fun (t, r) => (String.ofList t, r)
  | _ => none

def literalString : Reader String
  | '\'' :: r =>
    match r.dropWhile fun c => isPlain c && c ≠ '\'' with
    | '\'' :: rest => some (String.ofList (r.takeWhile fun c => isPlain c && c ≠ '\''), rest)
    | _ => none
  | _ => none

/-- A run of quotes in a long string: one or two are text, and of three or more the last three close
the string, with at most two in front of them. -/
def quoteRun (q : Char) (s : List Char) : Sum Nat Nat :=
  let k := (s.takeWhile (· = q)).length
  if k < 3 then .inl k else .inr (min (k - 3) 2)

/-- A long string up to its closing quotes, of at most `n` pieces. Line ends are read as line feeds.
In a basic one a backslash at the end of a line drops the white space that follows. -/
def longFrom (q : Char) (escapes : Bool) : Nat → Reader (List Char)
  | 0, _ => none
  | _, [] => none
  | n + 1, c :: r =>
    if c = q then
      match quoteRun q (c :: r) with
      | .inl k => after (List.replicate k q) (longFrom q escapes n ((c :: r).drop k))
      | .inr k => some (List.replicate k q, (c :: r).drop (k + 3))
    else if c = '\\' && escapes then
      match newline? (skipSpace r) with
      | some r =>
        let rec skip : Nat → List Char → List Char
          | 0, s => s
          | m + 1, s =>
            match newline? (skipSpace s) with
            | some s => skip m s
            | none => skipSpace s
        longFrom q escapes n (skip r.length r)
      | none =>
        match escape r with
        | some (x, r) => after [x] (longFrom q escapes n r)
        | none => none
    else match newline? (c :: r) with
      | some r => after ['\n'] (longFrom q escapes n r)
      | none => if isPlain c then after [c] (longFrom q escapes n r) else none

/-- A long string after its opening quotes. A line end right there is not part of it. -/
def long (q : Char) (escapes : Bool) : Reader String := fun s =>
  let s := (newline? s).getD s
  (longFrom q escapes (s.length + 1) s).map fun (t, r) => (String.ofList t, r)

def string : Reader String
  | '"' :: '"' :: '"' :: r => long '"' true r
  | '\'' :: '\'' :: '\'' :: r => long '\'' false r
  | '"' :: r => basic ('"' :: r)
  | s => literalString s

/-! ## Keys -/

def isKeyChar (c : Char) : Bool := c.isAlphanum || c = '_' || c = '-'

def simpleKey : Reader String
  | '"' :: r => basic ('"' :: r)
  | '\'' :: r => literalString ('\'' :: r)
  | s =>
    match s.takeWhile isKeyChar with
    | [] => none
    | k => some (String.ofList k, s.dropWhile isKeyChar)

/-- No table or array is nested deeper than this, and no dotted key is longer. -/
def depthLimit : Nat := 80

/-- A key and the keys after dots, at most `n`. Space may stand around each. -/
def dottedFrom : Nat → Reader (List String)
  | 0, _ => none
  | n + 1, s =>
    match simpleKey (skipSpace s) with
    | none => none
    | some (k, r) =>
      match skipSpace r with
      | '.' :: r =>
        match dottedFrom n r with
        | some (ks, r) => some (k :: ks, r)
        | none => none
      | r => some ([k], r)

def dottedKey : Reader (List String) := dottedFrom (depthLimit - 1)

/-! ## Numbers -/

/-- Digits of a base, each after the first one perhaps behind an underscore. -/
def digits (isDigit : Char → Bool) : Reader (List Char)
  | [] => none
  | c :: r => if isDigit c then some (c :: (more r).1, (more r).2) else none
where
  more : List Char → List Char × List Char
    | '_' :: c :: r => if isDigit c then (c :: (more r).1, (more r).2) else ([], '_' :: c :: r)
    | c :: r => if isDigit c then (c :: (more r).1, (more r).2) else ([], c :: r)
    | [] => ([], [])

def numeral (base : Nat) (ds : List Char) : Nat :=
  ds.foldl (fun a c => base * a + (hexValue? c).getD 0) 0

def signed : List Char → Bool × List Char
  | '-' :: r => (true, r)
  | '+' :: r => (false, r)
  | s => (false, s)

/-- A whole number in base ten; a leading zero stands alone. -/
def decimalDigits : Reader (List Char)
  | '0' :: r => some (['0'], r)
  | s => digits Char.isDigit s

/-- Integers have 64 bits and a sign. -/
def inRange (i : Int) : Bool := Int64.minValue.toInt ≤ i && i ≤ Int64.maxValue.toInt

def integerOf (i : Int) (rest : List Char) : Option (Value × List Char) :=
  if inRange i then some (.integer i, rest) else none

def isBinaryDigit (c : Char) : Bool := c = '0' || c = '1'

def isOctalDigit (c : Char) : Bool := '0' ≤ c && c ≤ '7'

def basedInteger (base : Nat) (isDigit : Char → Bool) (s : List Char) :
    Option (Value × List Char) := do
  let (ds, r) ← digits isDigit s
  integerOf (numeral base ds) r

def integer : Reader Value
  | '0' :: 'x' :: r => basedInteger 16 (fun c => (hexValue? c).isSome) r
  | '0' :: 'o' :: r => basedInteger 8 isOctalDigit r
  | '0' :: 'b' :: r => basedInteger 2 isBinaryDigit r
  | s => do
    let (negative, s) := signed s
    let (ds, r) ← decimalDigits s
    let n : Int := numeral 10 ds
    integerOf (if negative then -n else n) r

/-- The exponent of a float, after its digits. -/
def exponent : Reader Int
  | c :: r =>
    if c = 'e' || c = 'E' then do
      let (negative, r) := signed r
      let (ds, r) ← digits Char.isDigit r
      let n : Int := numeral 10 ds
      return (if negative then -n else n, r)
    else none
  | [] => none

def special : Reader Value := fun s =>
  let (negative, s) := signed s
  match s with
  | 'i' :: 'n' :: 'f' :: r => some (.float (.infinite negative), r)
  | 'n' :: 'a' :: 'n' :: r => some (.float .nan, r)
  | _ => none

/-- A number too large for a float is no number, a negative one is minus infinity. -/
def floatOf (negative : Bool) (ds : List Char) (e : Int) (rest : List Char) :
    Option (Value × List Char) :=
  match Binary64.ofDecimal negative (numeral 10 ds) e with
  | .infinite false => none
  | x => some (.float x, rest)

def float : Reader Value := fun s => do
  let (negative, t) := signed s
  let (ds, r) ← decimalDigits t
  match r with
  | '.' :: r =>
    let (fs, r) ← digits Char.isDigit r
    let (e, r) := (exponent r).getD (0, r)
    floatOf negative (ds ++ fs) (e - fs.length) r
  | r =>
    let (e, r) ← exponent r
    floatOf negative ds e r

/-! ## Dates and times -/

/-- A number of exactly `n` digits, from `low` to `high`. -/
def fixed (n low high : Nat) : Reader Nat := fun s =>
  let ds := s.take n
  let v := numeral 10 ds
  if ds.length = n && ds.all Char.isDigit && low ≤ v && v ≤ high then some (v, s.drop n) else none

def mark (c : Char) : Reader Unit
  | x :: r => if x = c then some ((), r) else none
  | [] => none

def daysIn (year month : Nat) : Nat :=
  if month = 2 then
    if year % 4 = 0 && (year % 100 ≠ 0 || year % 400 = 0) then 29 else 28
  else if month = 4 || month = 6 || month = 9 || month = 11 then 30 else 31

def date : Reader Unit := fun s => do
  let (year, s) ← fixed 4 0 9999 s
  let (_, s) ← mark '-' s
  let (month, s) ← fixed 2 1 12 s
  let (_, s) ← mark '-' s
  let (_, s) ← fixed 2 1 (daysIn year month) s
  return ((), s)

def time : Reader Unit := fun s => do
  let (_, s) ← fixed 2 0 23 s
  let (_, s) ← mark ':' s
  let (_, s) ← fixed 2 0 59 s
  let (_, s) ← mark ':' s
  let (_, s) ← fixed 2 0 60 s
  match s with
  | '.' :: r =>
    let f := r.dropWhile Char.isDigit
    return ((), if f.length < r.length then f else s)
  | _ => return ((), s)

def offset : Reader Unit
  | 'Z' :: r | 'z' :: r => some ((), r)
  | c :: r =>
    if c = '+' || c = '-' then do
      let (_, r) ← fixed 2 0 23 r
      let (_, r) ← mark ':' r
      let (_, r) ← fixed 2 0 59 r
      return ((), r)
    else none
  | [] => none

/-- A time after a date, with its offset. -/
def timeOfDay : Reader Unit
  | c :: r =>
    if c = 'T' || c = 't' || c = ' ' then do
      let (_, r) ← time r
      return ((), ((offset r).map Prod.snd).getD r)
    else none
  | [] => none

/-- A date, a time, or both with or without an offset. -/
def datetime : Reader Value := fun s =>
  let found : Option (List Char) := match date s with
    | some (_, r) => some (((timeOfDay r).map Prod.snd).getD r)
    | none => (time s).map Prod.snd
  found.map fun r => (.datetime (String.ofList (s.take (s.length - r.length))), r)

/-- The first reading that fits. Whatever may follow a value, none of the others would fit
better. -/
def number : Reader Value := fun s =>
  match datetime s with
  | some v => some v
  | none =>
    match float s with
    | some v => some v
    | none =>
      match special s with
      | some v => some v
      | none => integer s

def keyword : Reader Value
  | 't' :: 'r' :: 'u' :: 'e' :: r => some (.boolean true, r)
  | 'f' :: 'a' :: 'l' :: 's' :: 'e' :: r => some (.boolean false, r)
  | s => number s

end ServiceMap.Toml
