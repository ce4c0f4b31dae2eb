import ServiceMap.Command.Run

/-! The program: it loads the part of the file system that a run may look at, runs, and writes out
what the run leaves behind. -/

namespace ServiceMap.Program

/-- Files that are looked for by name, in every directory up to the root. -/
def markers : List String := [".crossdeps.toml", ".gitignore", ".ignore", ".git"]

/-- Whether a run may ask what a file of this name holds. -/
def matters (name : String) : Bool :=
  markers.contains name || name = "exclude" ||
    ((Path.mk name).extension?.bind Language.ofExtension?).isSome

/-- What stands at an entry, with everything below it. What cannot be reached is a link to itself,
which leads nowhere. -/
partial def load (e : IO.FS.DirEntry) : IO Node := do
  try
    match (← e.path.symlinkMetadata).type with
    | .dir => return .dir (← (← e.path.readDir).toList.mapM fun c => return (c.fileName, ← load c))
    | .file =>
      if matters e.fileName then return .file (← IO.FS.readBinFile e.path)
      return .file .empty
    | .symlink => return .link (← IO.FS.realPath e.path).toString
    | .other => return .link e.fileName
  catch _ => return .link e.fileName

/-- Puts the entries of a directory that are wanted into the tree. -/
def loadDir (wanted : String → Bool) (tree : FileTree) (dir : Path) : IO FileTree := do
  try
    let place ← IO.FS.realPath dir.text
    let tree := if tree.isDir dir then tree else tree.insert ⟨place.toString⟩ (.dir [])
    ((← place.readDir).toList.filter fun e => wanted e.fileName).foldlM
      (fun tree e => return tree.insert ⟨e.path.toString⟩ (← load e)) tree
  catch _ => return tree

/-- The directories above a path, and the path itself. -/
def lineage (p : Path) : List Path := Settings.lineage p.components.length p

/-- Puts a path into the tree if it is a link. -/
def loadLink (tree : FileTree) (p : Path) : IO FileTree := do
  try
    let (some dir, some name) := (p.parent?, p.fileName?) | return tree
    let place := (← IO.FS.realPath dir.text) / name
    match (← place.symlinkMetadata).type with
    | .symlink => return tree.insert ⟨place.toString⟩ (.link (← IO.FS.realPath place).toString)
    | _ => return tree
  catch _ => return tree

/-- Puts the links on the way to a path into the tree. -/
def loadLinks (tree : FileTree) (p : Path) : IO FileTree :=
  (lineage p).reverse.foldlM loadLink tree

def loadMarkers (tree : FileTree) (dir : Path) : IO FileTree :=
  (lineage dir).foldlM (loadDir markers.contains) tree

/-- Makes known what kind of thing stands at a path, if there is anything. -/
def loadKind (tree : FileTree) (p : Path) : IO FileTree := do
  if tree.exists? p then return tree
  try
    let place ← IO.FS.realPath p.text
    let node : Node := if ← place.isDir then .dir [] else .file .empty
    if ← place.pathExists then return tree.insert ⟨place.toString⟩ node else return tree
  catch _ => return tree

def loadFile (tree : FileTree) (p : Path) : IO FileTree := do
  try
    let place ← IO.FS.realPath p.text
    return tree.insert ⟨place.toString⟩ (.file (← IO.FS.readBinFile place))
  catch _ => return tree

/-- The configuration that an invocation names, and the other paths that it speaks of. -/
def paths : Command.Invocation → Option Path × List Path
  | .check a => (a.config, a.subtree.toList ++ a.output.toList ++ a.diagramOutput.toList)
  | .services a => (a.config, [])
  | _ => (none, [])

/-- The part of the file system that a run may look at. -/
def snapshot (dir : Path) (i : Command.Invocation) : IO FileTree := do
  let (config, others) := paths i
  let mut tree ← loadMarkers .empty dir
  if let some file := config then
    tree ← loadFile (← loadLinks tree (dir.join file)) (dir.join file)
  if let .ok settings := Settings.load tree dir config then
    for root in settings.projectRoot :: settings.services.map fun s => ⟨s.root⟩ do
      let root := settings.projectRoot.join root
      unless tree.isDir root && root.isUnder settings.projectRoot && root ≠ settings.projectRoot do
        tree ← loadDir (fun _ => true) (← loadMarkers (← loadLinks tree root) root) root
  for p in others do
    let p := dir.join p
    tree ← loadKind (← loadKind (← loadLinks tree p) (p.parent?.getD p)) p
  return tree

def report (e : Error) : IO Unit := do
  IO.eprintln s!"Error: {e.code}: {e.message}"
  if e.isConfig then
    IO.eprintln "No analysis was performed; fix the configuration and re-run."

def run (arguments : List String) : IO UInt32 := do
  let invocation := Command.Invocation.ofArguments arguments
  let dir : Path := ⟨(← IO.currentDir).toString⟩
  let before ← snapshot dir invocation
  let (ending, world) := invocation.run { tree := before, workingDir := dir }
  for (p, bytes) in before.changed world.tree do
    IO.FS.writeBinFile p.text bytes
  IO.print world.output
  let threshold := ((← IO.getEnv "RUST_LOG").getD "error") |> Level.ofSetting?
  for e in world.log.filter (Event.passes threshold) do
    IO.eprintln e.text
  match ending with
  | .failed e => report e
  | .misused => IO.eprint Command.usage
  | _ => pure ()
  return ending.exitCode.toUInt32

end ServiceMap.Program

def main (arguments : List String) : IO UInt32 := ServiceMap.Program.run arguments
