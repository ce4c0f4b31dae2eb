import ServiceMap.Path
import ServiceMap.Text.Utf8

/-! What reports show of paths. The runs of the program name files by text; a report can hold any path
that the system has, and those are bytes. -/

namespace ServiceMap

/-- A kind of paths that a report can hold. -/
class FileName (P : Type) where
  /-- The path as text, if it is one. -/
  text? : P → Option String
  /-- The path as it is shown to people, text or not. -/
  shown : P → String

instance : FileName Path where
  text? p := some p.text
  shown := Path.text

/-- A path as the system keeps it. -/
structure SystemPath where
  bytes : List UInt8

instance : FileName SystemPath where
  text? p := Text.ofUtf8? p.bytes
  shown p := Text.lossy p.bytes

end ServiceMap
