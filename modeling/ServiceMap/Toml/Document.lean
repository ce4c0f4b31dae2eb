import ServiceMap.Toml.Scalar

/-! TOML documents: how values nest, and how the lines of a document build up its tables. -/

namespace ServiceMap.Toml

/-! ## Inline tables -/

/-- What stands under a key while an inline table is read: a value, or a table that dotted keys have
opened and may still extend. -/
inductive Slot where
  | value (v : Value)
  | opened (entries : List (String × Slot))

/-- Sets the value at a dotted key. A key that is there already is taken up only on the way, and
only where dotted keys opened it. -/
def Slot.set (v : Value) : List String → List (String × Slot) → Option (List (String × Slot))
  | [], _ => none
  | [k], entries =>
    if (entries.lookup k).isSome then none else some (entries ++ [(k, .value v)])
  | k :: ks, entries =>
    match entries.lookup k with
    | none => (Slot.set v ks []).map fun inner => entries ++ [(k, .opened inner)]
    | some (.opened inner) =>
      (Slot.set v ks inner).map fun inner =>
        entries.map fun (key, slot) => if key = k then (key, .opened inner) else (key, slot)
    | some (.value _) => none

mutual

def Slot.toValue : Slot → Value
  | .value v => v
  | .opened entries => .table (Slot.toEntries entries)

def Slot.toEntries : List (String × Slot) → Entries
  | [] => []
  | (k, s) :: rest => (k, s.toValue) :: Slot.toEntries rest

end

def inlineTable? (pairs : List (List String × Value)) : Option Value :=
  (pairs.foldlM (fun entries (k, v) => Slot.set v k entries) []).map fun entries =>
    .table (Slot.toEntries entries)

/-! ## Values -/

/-- The items of an array after its bracket, at most `n`. A comma may follow the last one. -/
def itemsFrom (item : Reader Value) : Nat → Reader (List Value)
  | 0, _ => none
  | n + 1, s =>
    match skipGap s with
    | ']' :: r => some ([], r)
    | s =>
      match item s with
      | none => none
      | some (v, r) =>
        match skipGap r with
        | ',' :: r =>
          match itemsFrom item n r with
          | some (vs, r) => some (v :: vs, r)
          | none => none
        | ']' :: r => some ([v], r)
        | _ => none

/-- A key, its equals sign and the space around them. -/
def keyEquals : Reader (List String) := fun s =>
  match dottedKey s with
  | some (k, '=' :: r) => some (k, skipSpace r)
  | _ => none

/-- The pairs of an inline table, at most `n`, from a key to the closing brace. -/
def pairsFrom (item : Reader Value) : Nat → Reader (List (List String × Value))
  | 0, _ => none
  | n + 1, s =>
    match keyEquals s with
    | none => none
    | some (k, r) =>
      match item r with
      | none => none
      | some (v, r) =>
        match skipSpace r with
        | ',' :: r =>
          match pairsFrom item n r with
          | some (ps, r) => some ((k, v) :: ps, r)
          | none => none
        | '\x7d' :: r => some ([(k, v)], r)
        | _ => none

/-- A value with less than `depth` arrays and inline tables around its parts. -/
def valueWithin : Nat → Reader Value
  | 0, _ => none
  | depth + 1, '[' :: r =>
    if depth = 0 then none
    else (itemsFrom (valueWithin depth) (r.length + 1) r).map fun (vs, r) => (.array vs, r)
  | depth + 1, '\x7b' :: r =>
    if depth = 0 then none
    else match skipSpace r with
      | '\x7d' :: r => some (.table [], r)
      | s =>
        match pairsFrom (valueWithin depth) (s.length + 1) s with
        | some (ps, r) => (inlineTable? ps).map (·, r)
        | none => none
  | _ + 1, '"' :: r => (string ('"' :: r)).map fun (t, r) => (.string t, r)
  | _ + 1, '\'' :: r => (string ('\'' :: r)).map fun (t, r) => (.string t, r)
  | _ + 1, s => keyword s

def value : Reader Value := valueWithin depthLimit

/-! ## Lines -/

inductive Statement where
  | pair (key : List String) (v : Value)
  | header (key : List String)
  | arrayHeader (key : List String)

/-- A header's key, its closing brackets and the end of its line. -/
def headerKey (close : List Char) (s : List Char) : Option (List String × List Char) :=
  match dottedKey s with
  | none => none
  | some (k, r) => if close.isPrefixOf r then (lineEnd? (r.drop close.length)).map (k, ·) else none

def statement : Reader Statement
  | '[' :: '[' :: r => (headerKey [']', ']'] r).map fun (k, r) => (.arrayHeader k, r)
  | '[' :: r => (headerKey [']'] r).map fun (k, r) => (.header k, r)
  | s =>
    match keyEquals s with
    | none => none
    | some (k, r) =>
      match value r with
      | none => none
      | some (v, r) => (lineEnd? r).map (.pair k v, ·)

/-- The statements of a text of at most `n` lines. -/
def statementsFrom : Nat → List Char → Option (List Statement)
  | 0, _ => none
  | n + 1, s =>
    match skipSpace s with
    | [] => some []
    | s =>
      match newline? s with
      | some r => statementsFrom n r
      | none =>
        if s.head? = some '#' then (lineEnd? s).bind (statementsFrom n)
        else match statement s with
          | none => none
          | some (st, r) => (statementsFrom n r).map (st :: ·)

/-- The statements of a text. A byte order mark in front is not part of it. -/
def statements (s : List Char) : Option (List Statement) :=
  let s := if s.head? = some '\ufeff' then s.drop 1 else s
  statementsFrom (s.length + 1) s

/-! ## Tables -/

/-- How a table came to be. -/
inductive Origin where
  /-- By a header of its own. -/
  | header
  /-- On the way to a table with a header. -/
  | implied
  /-- By a dotted key. -/
  | dotted
  deriving DecidableEq

inductive Item where
  | value (v : Value)
  | table (origin : Origin) (entries : List (String × Item))
  | tables (elements : List (List (String × Item)))

abbrev Items := List (String × Item)

/-- Puts an item in the place of the one that the key has. -/
def Items.replace (entries : Items) (k : String) (item : Item) : Items :=
  entries.map fun (key, old) => if key = k then (key, item) else (key, old)

/-- Changes the table that `path` leads to by `f`, which is told how the table came to be. Tables on
the way are made as `made` where they are missing, and a path through an array of tables goes to the
last of them. A dotted key does not pass through a table that has a header. -/
def change (made : Origin) (f : Origin → Items → Option Items) :
    List String → Origin → Items → Option Items
  | [], origin, entries => f origin entries
  | k :: ks, _, entries =>
    match entries.lookup k with
    | none =>
      (change made f ks made []).map fun inner => entries ++ [(k, .table made inner)]
    | some (.value _) => none
    | some (.table origin inner) =>
      if made = .dotted && origin = .header then none
      else (change made f ks origin inner).map fun inner =>
        entries.replace k (.table origin inner)
    | some (.tables elements) =>
      match elements.getLast? with
      | none => none
      | some last =>
        (change made f ks .header last).map fun last =>
          entries.replace k (.tables (elements.dropLast ++ [last]))

/-- Sets a key that is not there yet. In a table that has a header, or is implied by one, only a
plain key is set; in one that dotted keys made, only a dotted one. -/
def setValue (plain : Bool) (k : String) (v : Value) (origin : Origin) (entries : Items) :
    Option Items :=
  if decide (origin = .dotted) = plain then none
  else if (entries.lookup k).isSome then none
  else some (entries ++ [(k, .value v)])

/-- A document while its lines are taken up: the tables that are done, and the current one with the
path to its place. The path is empty for the table at the top. -/
structure Build where
  root : Items
  path : List String
  isElement : Bool
  current : Items

namespace Build

def start : Build := ⟨[], [], false, []⟩

/-- Puts the current table in its place. -/
def close (b : Build) : Option Items :=
  match b.path.getLast? with
  | none => some b.current
  | some k =>
    let place (_ : Origin) (entries : Items) : Option Items :=
      match entries.lookup k, b.isElement with
      | none, true => some (entries ++ [(k, .tables [b.current])])
      | none, false => some (entries ++ [(k, .table .header b.current)])
      | some (.tables elements), true =>
        some (entries.replace k (.tables (elements ++ [b.current])))
      | some _, _ => none
    change .implied place b.path.dropLast .header b.root

/-- The table that a header may take up again: one that was only implied so far. -/
def reopened (k : String) : List String → Items → Option Items
  | [], entries =>
    match entries.lookup k with
    | none => some []
    | some (.table .implied inner) => some inner
    | some _ => none
  | p :: ps, entries =>
    match entries.lookup p with
    | none => some []
    | some (.table _ inner) => reopened k ps inner
    | some (.tables elements) => (elements.getLast?).bind (reopened k ps)
    | some (.value _) => none

/-- A table header. A table that was implied before moves to the end, where its header stands. -/
def header (b : Build) (path : List String) : Option Build := do
  let root ← b.close
  let k ← path.getLast?
  let inner ← reopened k path.dropLast root
  let without (_ : Origin) (entries : Items) : Option Items :=
    some (entries.filter fun e => e.1 ≠ k)
  let root ← change .implied without path.dropLast .header root
  return ⟨root, path, false, inner⟩

/-- A header of an array of tables, which must not meet anything else under its key. -/
def arrayHeader (b : Build) (path : List String) : Option Build := do
  let root ← b.close
  let k ← path.getLast?
  let check (_ : Origin) (entries : Items) : Option Items :=
    match entries.lookup k with
    | none => some (entries ++ [(k, .tables [])])
    | some (.tables _) => some entries
    | some _ => none
  let root ← change .implied check path.dropLast .header root
  return ⟨root, path, true, []⟩

def pair (b : Build) (key : List String) (v : Value) : Option Build := do
  let k ← key.getLast?
  let current ← change .dotted (setValue (key.length = 1) k v) key.dropLast .header b.current
  return { b with current }

def step (b : Build) : Statement → Option Build
  | .pair key v => b.pair key v
  | .header path => b.header path
  | .arrayHeader path => b.arrayHeader path

end Build

mutual

def Item.toValue : Item → Value
  | .value v => v
  | .table _ entries => .table (Item.toEntries entries)
  | .tables elements => .array (Item.toTables elements)

def Item.toEntries : List (String × Item) → Entries
  | [] => []
  | (k, i) :: rest => (k, i.toValue) :: Item.toEntries rest

def Item.toTables : List (List (String × Item)) → List Value
  | [] => []
  | e :: rest => .table (Item.toEntries e) :: Item.toTables rest

end

/-- The table that a text spells, or nothing when it is not TOML. -/
def parse? (text : String) : Option Entries := do
  let lines ← statements text.toList
  let build ← lines.foldlM Build.step Build.start
  let root ← build.close
  return Item.toEntries root

end ServiceMap.Toml
