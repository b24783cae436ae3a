import MarkdownLinks.Disk.Lookup

/-!
# Changing a disk

Files, directories and symbolic links are made and removed by path.  The directories on the way
are looked up through links, and made where they lack.
-/

namespace MarkdownLinks

namespace Disk

/-- Where a new entry at a path goes: the directory that holds it, looked up through links, and
the name in it. -/
def place? (disk : Disk) (p : Path) : Option (List Name) := do
  let name ← p.fileName?
  let parent ← p.parent?
  let inCwd : Path := ⟨[dot]⟩
  match disk.locate (if parent.bytes = [] then inCwd else parent) with
  | .ok names => return names ++ [name]
  | .error _ => none

/-- The path and all that it lies in, outermost first. -/
def ancestry (p : Path) : List Path :=
  let components := p.components
  (List.range components.length).map fun n => .ofComponents (components.take (n + 1))

/-- The disk with the directories on a path, and the one that it names. -/
def makeDirectory (disk : Disk) (p : Path) : Disk :=
  if disk.contains p then
    disk
  else
    (ancestry p).foldl
      (fun disk p =>
        if disk.contains p then disk
        else
          match disk.place? p with
          | some names => disk.putDirectory names
          | none => disk)
      disk

/-- The disk with the directories in which a path lies. -/
def makeParents (disk : Disk) (p : Path) : Disk :=
  match p.parent? with
  | some parent => disk.makeDirectory parent
  | none => disk

/-- Where a file that is written to a path goes.  A link there is followed, also to a place that
has no entry yet; at most `links` links may be followed. -/
def destination? (disk : Disk) : Nat → Path → Option (List Name)
  | links, p => do
    let names ← disk.place? p
    match links, disk.at? names with
    | links + 1, some (.link target) =>
      disk.destination? links ((Path.ofNames names.dropLast).join target)
    | 0, some (.link _) => none
    | _, some (.directory _) => none
    | _, _ => some names

/-- The disk with a file at a path, whether it can be read or not. -/
def putContent (disk : Disk) (p : Path) (content : Content) : Disk :=
  let disk := disk.makeParents p
  match disk.destination? maxLinks p with
  | some names => disk.putFile names content
  | none => disk

def writeFile (disk : Disk) (p : Path) (bytes : Bytes) : Disk :=
  disk.putContent p (.bytes bytes)

def makeLink (disk : Disk) (p target : Path) : Disk :=
  let disk := disk.makeParents p
  match disk.place? p with
  | some names => disk.putLink names target
  | none => disk

/-- The disk without what is at a path; a link there is removed itself. -/
def delete (disk : Disk) (p : Path) : Disk :=
  match disk.place? p with
  | some names => disk.remove names
  | none => disk

end Disk

end MarkdownLinks
