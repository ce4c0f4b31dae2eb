import ServiceMap.Path

/-! Paths without dots. Going up takes away the name before; the file tree is not asked. -/

namespace ServiceMap.Path

/-- One component more after `done`, which has no dots. The root has nothing above it, and neither
has the place where a relative path starts. -/
def collapseStep (done : List Component) : Component → Option (List Component)
  | .here => some done
  | .up =>
    match done.getLast? with
    | none => none
    | some .root => none
    | some _ => some done.dropLast
  | c => some (done ++ [c])

/-- The components without dots; nothing when the path climbs above where it starts. -/
def collapseComponents (cs : List Component) : Option (List Component) :=
  cs.foldlM collapseStep []

def collapse? (p : Path) : Option Path := (collapseComponents p.components).map ofComponents

end ServiceMap.Path
