import MarkdownLinks.CommandLine.Run
import MarkdownLinks.Disk.Edit

/-!
# The command

The outer layer takes a snapshot of the files that a check looks at, lets the check run on it, and
prints what the run gives.  A snapshot holds the settings file, the documents below the root, and
what the links of these documents lead to.
-/

namespace MarkdownLinks

namespace CommandLine

namespace Snapshot

/-- The largest number of directories inside each other that a snapshot goes into. -/
def maxDepth : Nat := 2048

/-- The disk with what the operating system has at a path: a directory, or a file, which is read
if it is `wanted`.  A link there, or on the way, is kept as a link to where it ends. -/
def add (wanted : Bool) (disk : Disk) (p : Path) : IO Disk := do
  let some name := p.text? | return disk
  let .ok place ← (IO.FS.realPath (String.ofList name)).toBaseIO | return disk
  let real := Path.ofText place.toString.toList
  let disk ←
    if ← place.isDir then
      pure (disk.makeDirectory real)
    else if wanted then
      match ← (IO.FS.readBinFile place).toBaseIO with
      | .ok bytes => pure (disk.writeFile real bytes.toList)
      | .error cause => pure (disk.putContent real (.unreadable (.other (toString cause).toList)))
    else if disk.contains real then
      pure disk
    else
      pure (disk.writeFile real [])
  match disk.canonical p.normalize with
  | .ok reached => return if reached = real then disk else disk.makeLink p.normalize real
  | .error _ => return disk.makeLink p.normalize real

/-- The names in a directory, each with whether it is a directory itself and no link to one. -/
def entries (directory : Path) : IO (List (Name × Bool)) := do
  let some name := directory.text? | return []
  let .ok place ← (IO.FS.realPath (String.ofList name)).toBaseIO | return []
  let .ok found ← place.readDir.toBaseIO | return []
  found.toList.filterMapM fun entry => do
    let some name := Name.ofBytes? (Utf8.encode entry.fileName.toList) | return none
    match ← entry.path.symlinkMetadata.toBaseIO with
    | .ok metadata => return some (name, metadata.type == .dir)
    | .error _ => return none

def addDocuments (settings : Settings) : Nat → Disk → Path → IO Disk
  | 0, disk, _ => return disk
  | depth + 1, disk, directory => do
    (← entries directory).foldlM
      (fun disk (name, isDirectory) => do
        let p := directory.child name
        if settings.excludesName name then
          return disk
        else if isDirectory then
          addDocuments settings depth (← add false disk p) p
        else if settings.isDocumentName p then
          add true disk p
        else
          return disk)
      disk

/-- The inspector's disk with what the links of a document lead to. -/
def addTargets (inspector : Inspector) (document : Path) : IO Disk := do
  let .ok text := Document.read inspector.disk document | return inspector.disk
  let settings := inspector.settings
  (Link.scan text).foldlM
    (fun disk link => do
      match Url.target link.url with
      | .file file _ =>
        if file.isEmpty then
          return disk
        let take := fun disk p => add (settings.isDocumentName p) disk p
        let disk ← take disk (inspector.statedPath document file)
        let target := { inspector with disk }.targetPath document file
        take (← take disk target) (target.append settings.dottedExtension)
      | _ => return disk)
    inspector.disk

/-- The part of the file system that a check of a root looks at. -/
def take (options : CheckOptions) (root : Path) : IO Disk := do
  let disk ← add true (← add false .empty root) (Settings.filePath root)
  let .ok settings := Settings.load disk root | return disk
  let settings := options.apply settings
  let disk ← addDocuments settings maxDepth disk root
  (Search.documents disk settings root).foldlM
    (fun disk document =>
      addTargets { disk, settings, root, probe := none } document)
    disk

/-- The entries below a directory that are not left out, each with the time of its last change. -/
def changes (settings : Settings) :
    Nat → Path → IO (List (Path × Option IO.FS.SystemTime))
  | 0, _ => return []
  | depth + 1, directory => do
    let kept := (← entries directory).filter fun (name, _) => !settings.excludesName name
    let found ← kept.mapM fun (name, isDirectory) => do
      let p := directory.child name
      let metadata ← (IO.FS.realPath (String.ofList p.display) >>= (·.metadata)).toBaseIO
      let time := metadata.toOption.map (·.modified)
      let below ← if isDirectory then changes settings depth p else pure []
      return (p, time) :: below
    return found.flatten

end Snapshot

/-- The network as this command knows it: it sends no requests. -/
def noNetwork : Probe :=
  fun _ => .unreachable "requests are not supported".toList

def emit (output : Output) : IO Unit := do
  IO.print (String.ofList output.stdout)
  (← IO.getStdout).flush
  IO.eprint (String.ofList output.stderr)

/-- The canonical path of the root of an invocation, if the operating system finds it. -/
def findRoot (invocation : Invocation) : IO (Option Path) := do
  let given := String.ofList (invocation.repo.getD ['.'])
  let .ok place ← (IO.FS.realPath given).toBaseIO | return none
  return if ← place.isDir then some (.ofText place.toString.toList) else none

/-- What an invocation does to the files as they are now. -/
def invokeNow (terminal : Bool) (invocation : Invocation) : IO Output := do
  let some root ← findRoot invocation | return invoke ⟨.empty, noNetwork, terminal⟩ invocation
  let invocation := { invocation with repo := some root.display }
  let options := invocation.options terminal
  return invoke ⟨← Snapshot.take options root, noNetwork, terminal⟩ invocation

/-- Checks again whenever an entry below the root changes, and never ends. -/
def watch (terminal : Bool) (invocation : Invocation) : IO Unit := do
  let some root ← findRoot invocation | return
  let options := invocation.options terminal
  let .ok settings := Settings.load (← Snapshot.take options root) root | return
  let current := Snapshot.changes (options.apply settings) Snapshot.maxDepth root
  let mut seen ← current
  while true do
    IO.sleep 500
    let now ← current
    if now != seen then
      seen := now
      IO.eprintln "watch: change detected, re-checking..."
      emit (← invokeNow terminal { invocation with watch := false })

end CommandLine

end MarkdownLinks

def main (arguments : List String) : IO UInt32 := do
  let arguments := arguments.map String.toList
  let terminal ← (← IO.getStdout).isTty
  match MarkdownLinks.CommandLine.parse arguments with
  | .ok (.check invocation) =>
    let output ← MarkdownLinks.CommandLine.invokeNow terminal invocation
    MarkdownLinks.CommandLine.emit output
    if output.watching then
      MarkdownLinks.CommandLine.watch terminal invocation
    return output.exitCode.toUInt32
  | _ =>
    let output := MarkdownLinks.CommandLine.run
      ⟨.empty, MarkdownLinks.CommandLine.noNetwork, terminal⟩ arguments
    MarkdownLinks.CommandLine.emit output
    return output.exitCode.toUInt32
