import MarkdownLinks.Disk.Basic

/-!
# Looking paths up

A path is followed from directory to directory, and through the symbolic links on its way, as the
operating system does it: every move, also `.` and an empty segment at the end, needs a directory
to start from, and no more than forty links are followed.  A name, and a path that the operating
system is asked for, may only be so long.

A path of any length can be made canonical, but not by asking for it as a whole.  The canonical path
is made name by name: each name on the way is asked for by the canonical path that it ends, and once
more with a slash after it where what follows needs a directory.  All of these must be short enough.
-/

namespace MarkdownLinks

namespace Name

/-- The largest number of bytes in the name of an entry. -/
def maxLength : Nat := 255

/-- Why there is no entry of a name. -/
def absence (name : Name) : IoError :=
  if maxLength < name.bytes.length then .tooLong else .notFound

end Name

namespace Listing

/-- Where moves lead from the directory at `here`, if `follow` tells where a link's target and the
moves after it lead. -/
def travel (root : Listing)
    (follow : List Name → Path → List Move → Except IoError (List Name)) (here : List Name) :
    List Move → Except IoError (List Name)
  | [] => .ok here
  | move :: rest =>
    match root.at? here with
    | some (.directory entries) =>
      match move with
      | .stay => travel root follow here rest
      | .up => travel root follow here.dropLast rest
      | .into name =>
        match entries.find? name with
        | some (.link target) => follow here target rest
        | some _ => travel root follow (here ++ [name]) rest
        | none => .error name.absence
    | some _ => .error .notADirectory
    | none => .error .notFound

/-- Where moves lead from the directory at `here` when at most `links` links may be followed. -/
def resolve (root : Listing) : Nat → List Name → List Move → Except IoError (List Name)
  | 0, here, moves => root.travel (fun _ _ _ => .error .tooManyLinks) here moves
  | links + 1, here, moves =>
    root.travel
      (fun here target rest =>
        root.resolve links (if target.isAbsolute then [] else here) (target.moves ++ rest))
      here moves

/-- Whether moves ask, before they go on to any name, that they start from a directory. -/
def needDirectory : List Move → Bool
  | [] => false
  | [.stay] => true
  | .stay :: rest => needDirectory rest
  | .up :: _ => true
  | .into _ :: _ => false

/-- The canonical paths that are asked for where moves go from `here` to an entry: its own and, if
a directory is needed there, the same with a slash. -/
def askedAt (names : List Name) (rest : List Move) : List Path :=
  let path := Path.ofNames names
  if needDirectory rest then [path, path.append ['/']] else [path]

/-- The paths that are asked for while moves are followed from `here`, one name after the other, if
`follow` tells which ones come behind a link. -/
def asked (root : Listing) (follow : List Name → Path → List Move → List Path)
    (here : List Name) : List Move → List Path
  | [] => []
  | .stay :: rest => asked root follow here rest
  | .up :: rest => asked root follow here.dropLast rest
  | .into name :: rest =>
    match root.at? (here ++ [name]) with
    | some (.link target) => .ofNames (here ++ [name]) :: follow here target rest
    | some _ => askedAt (here ++ [name]) rest ++ asked root follow (here ++ [name]) rest
    | none => askedAt (here ++ [name]) rest

/-- The paths that are asked for while moves are followed from `here` and at most `links` links may
be followed. -/
def askedOnWay (root : Listing) : Nat → List Name → List Move → List Path
  | 0, here, moves => root.asked (fun _ _ _ => []) here moves
  | links + 1, here, moves =>
    root.asked
      (fun here target rest =>
        root.askedOnWay links (if target.isAbsolute then [] else here) (target.moves ++ rest))
      here moves

end Listing

namespace Disk

/-- The number of symbolic links that are followed for one path. -/
def maxLinks : Nat := 40

/-- The largest number of bytes in a path that is asked for. -/
def maxPathLength : Nat := 4095

/-- Whether a path holds a zero byte, which no path of the operating system does. -/
def holdsZero (p : Path) : Bool :=
  p.bytes.contains 0

/-- The names that lead from the root to what a path refers to, through no link. -/
def locate (disk : Disk) (p : Path) : Except IoError (List Name) :=
  if holdsZero p then
    .error .zeroByte
  else if p.bytes = [] then
    .error .notFound
  else
    disk.root.resolve maxLinks (if p.isAbsolute then [] else disk.cwd) p.moves

def entry (disk : Disk) (p : Path) : Except IoError Entry := do
  if maxPathLength < p.bytes.length && !holdsZero p then
    throw .tooLong
  let names ← disk.locate p
  match disk.at? names with
  | some entry => return entry
  | none => throw .notFound

def contains (disk : Disk) (p : Path) : Bool :=
  (disk.entry p).isOk

def isFile (disk : Disk) (p : Path) : Bool :=
  match disk.entry p with
  | .ok (.file _) => true
  | _ => false

def isDirectory (disk : Disk) (p : Path) : Bool :=
  match disk.entry p with
  | .ok (.directory _) => true
  | _ => false

/-- The canonical paths that are asked for on the way of a path. -/
def asked (disk : Disk) (p : Path) : List Path :=
  disk.root.askedOnWay maxLinks (if p.isAbsolute then [] else disk.cwd) p.moves

/-- The absolute path, without links, of what a path refers to. -/
def canonical (disk : Disk) (p : Path) : Except IoError Path := do
  if !holdsZero p && (disk.asked p).any fun q => maxPathLength < q.bytes.length then
    throw .tooLong
  let names ← disk.locate p
  return .ofNames names

def read (disk : Disk) (p : Path) : Except IoError Bytes := do
  match ← disk.entry p with
  | .file (.bytes bytes) => return bytes
  | .file (.unreadable cause) => throw cause
  | _ => throw .isADirectory

end Disk

end MarkdownLinks
