import ServiceMap.Binary64

/-! Values of a TOML document. Tables keep their keys in the order in which they were set. -/

namespace ServiceMap.Toml

inductive Value where
  | string (s : String)
  | integer (i : Int)
  | float (x : Binary64)
  | boolean (b : Bool)
  | datetime (text : String)
  | array (items : List Value)
  | table (entries : List (String × Value))
  deriving Repr, Inhabited

/-- The keys and values of a table, in order. -/
abbrev Entries := List (String × Value)

end ServiceMap.Toml
