import ServiceMap.Writing

/-! A text of lines. -/

namespace ServiceMap

structure Rendering where
  ofLines ::
  lines : List String

namespace Rendering

def text (r : Rendering) : String := String.join (r.lines.map fun l => l ++ "\n")

end Rendering
end ServiceMap
