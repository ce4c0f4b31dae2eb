import ServiceMap.Error

/-! Text on its way to where it is written, which may take only so much of it. -/

namespace ServiceMap

/-- What has been written to a place, and how many bytes more it takes, if not all. -/
structure Sink where
  written : ByteArray
  room : Option Nat

namespace Sink

def ofRoom (room : Nat) : Sink := ⟨.empty, some room⟩

def endless : Sink := ⟨.empty, none⟩

def taken (s : Sink) : List UInt8 := s.written.data.toList

/-- Writes as much of the bytes as there is room for, and fails if that is not all. -/
def write (s : Sink) (bytes : ByteArray) : Option IoFault × Sink :=
  match s.room with
  | none => (none, ⟨s.written ++ bytes, none⟩)
  | some room =>
    (if bytes.size ≤ room then none else some .full,
      ⟨s.written ++ bytes.extract 0 room, some (room - bytes.size)⟩)

end Sink

/-- A step of writing. It writes nothing once one before it has failed. -/
abbrev Writing := ExceptT Error (StateM Sink)

namespace Writing

/-- Writes a text; `kind` says what it means that it could not be written. -/
def put (kind : IoFault → Error) (text : String) : Writing Unit := do
  match ← modifyGet fun s => s.write text.toUTF8 with
  | none => return
  | some e => throw (kind e)

def line (text : String) : Writing Unit := put .io (text ++ "\n")

/-- A piece of a JSON document. -/
def token (text : String) : Writing Unit := put (fun e => .json (.io e)) text

/-- What is written where there is room for everything. -/
def text (w : Writing Unit) : Except Error String :=
  match w.run .endless with
  | (.ok _, s) => .ok ((String.fromUTF8? s.written).getD "")
  | (.error e, _) => .error e

end Writing
end ServiceMap
