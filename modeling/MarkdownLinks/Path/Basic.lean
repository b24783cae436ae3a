import MarkdownLinks.Text.Utf8

/-!
# Paths

A path is any string of bytes, in which `/` separates segments.  Its text is kept as written; what
it means is read off its components, which leave out empty segments and `.` unless it comes first.
Two paths name the same place in the same way if they have the same components, and paths are
ordered by their components.
-/

namespace MarkdownLinks

def slash : UInt8 := 0x2F

def dot : UInt8 := 0x2E

def isName (segment : Bytes) : Bool :=
  segment != [] && segment != [dot] && segment != [dot, dot] && !segment.contains slash

structure Name where
  bytes : Bytes
  valid : isName bytes = true
  deriving DecidableEq

namespace Name

/-- The name that consists of the given bytes, if they are one. -/
def ofBytes? (bytes : Bytes) : Option Name :=
  if valid : isName bytes = true then some ⟨bytes, valid⟩ else none

end Name

/-- What one segment of a path says: stay in the directory, go up, or go to an entry. -/
inductive Move where
  | stay
  | up
  | into (name : Name)
  deriving DecidableEq

namespace Move

/-- The move that a segment stands for; empty segments and `.` stay. -/
def ofSegment (segment : Bytes) : Move :=
  if segment = [dot, dot] then
    .up
  else
    match Name.ofBytes? segment with
    | some name => .into name
    | none => .stay

end Move

/-- A part of a path that counts. -/
inductive Component where
  /-- The root directory; only at the beginning. -/
  | root
  /-- A `.` at the beginning. -/
  | here
  | parent
  | name (n : Name)
  deriving DecidableEq

namespace Component

/-- The component that a move gives, if it counts. -/
def ofMove? : Move → Option Component
  | .stay => none
  | .up => some .parent
  | .into n => some (.name n)

def bytes : Component → Bytes
  | root => [slash]
  | here => [dot]
  | parent => [dot, dot]
  | name n => n.bytes

/-- The bytes by which components are ordered: the root, `.`, `..`, then the names. -/
def key : Component → Bytes
  | root => [0]
  | here => [1]
  | parent => [2]
  | name n => 3 :: n.bytes

end Component

structure Path where
  bytes : Bytes
  deriving DecidableEq

namespace Path

def ofText (t : Text) : Path :=
  ⟨Utf8.encode t⟩

/-- The path as a text, with U+FFFD where it is not UTF-8. -/
def display (p : Path) : Text :=
  Utf8.decodeLossy p.bytes

/-- The path as a text, if it is UTF-8. -/
def text? (p : Path) : Option Text :=
  Utf8.decode? p.bytes

def isAbsolute (p : Path) : Bool :=
  p.bytes.head? == some slash

def segments (p : Path) : List Bytes :=
  splitAtEach slash p.bytes

/-- The moves that the path makes, one for each segment. -/
def moves (p : Path) : List Move :=
  p.segments.map Move.ofSegment

/-- The segments, each with the component that it gives. -/
def pieces (p : Path) : List (Bytes × Option Component) :=
  match p.segments with
  | [] => []
  | first :: rest =>
    let component :=
      if p.isAbsolute then some .root
      else if first = [dot] then some .here
      else Component.ofMove? (Move.ofSegment first)
    (first, component) :: rest.map fun segment =>
      (segment, Component.ofMove? (Move.ofSegment segment))

def components (p : Path) : List Component :=
  p.pieces.filterMap Prod.snd

/-- The path that is written with the given components. -/
def ofComponents : List Component → Path
  | .root :: rest => ⟨slash :: [slash].intercalate (rest.map Component.bytes)⟩
  | components => ⟨[slash].intercalate (components.map Component.bytes)⟩

/-- The absolute path that goes down through the given names. -/
def ofNames (names : List Name) : Path :=
  ofComponents (.root :: names.map .name)

/-- The bytes by which paths are ordered, component by component. -/
def key (p : Path) : List Bytes :=
  p.components.map Component.key

/-- Whether one path comes before another or has the same components. -/
def le (p q : Path) : Bool :=
  p.key ≤ q.key

/-- The second path as seen from the directory that the first one names. -/
def join (p q : Path) : Path :=
  if q.isAbsolute then q
  else if p.bytes = [] ∨ p.bytes.getLast? = some slash then ⟨p.bytes ++ q.bytes⟩
  else ⟨p.bytes ++ slash :: q.bytes⟩

/-- An entry of the directory that the path names. -/
def child (p : Path) (name : Name) : Path :=
  p.join ⟨name.bytes⟩

/-- The path without its last component; a path without components and the root have none. -/
def parent? (p : Path) : Option Path :=
  match p.components.getLast? with
  | none => none
  | some .root => none
  | some _ => some (ofComponents p.components.dropLast)

def fileName? (p : Path) : Option Name :=
  match p.components.getLast? with
  | some (.name name) => some name
  | _ => none

/-- The bytes after the last full stop of the name at the end, unless the name has none or starts
with it. -/
def extension? (p : Path) : Option Bytes := do
  let name ← p.fileName?
  let (after, before) ← splitAtFirst? dot name.bytes.reverse
  if before.isEmpty then none else return after.reverse

def append (p : Path) (t : Text) : Path :=
  ⟨p.bytes ++ Utf8.encode t⟩

/-- Whether the path, as it is displayed, ends with a text. -/
def endsWith (p : Path) (t : Text) : Bool :=
  t.isSuffixOf p.display

/-- One more component on a stack of components, the last one first, with `.` and `..` resolved
where this is possible without looking at any directory. -/
def pushNormal : List Component → Component → List Component
  | stack, .here => stack
  | .name _ :: below, .parent => below
  | .root :: below, .parent => .root :: below
  | stack, .parent => .parent :: stack
  | stack, component => component :: stack

/-- The path without `.` and with each `..` resolved against the name before it. -/
def normalize (p : Path) : Path :=
  ofComponents (p.components.foldl pushNormal []).reverse

/-- The pieces after the first `n` components, and without segments that give no component at
their two ends. -/
def piecesAfter (n : Nat) (pieces : List (Bytes × Option Component)) :
    List (Bytes × Option Component) :=
  match n with
  | 0 => trimBoth (·.2.isNone) pieces
  | n + 1 => piecesAfter n (pieces.dropWhile (·.2.isNone)).tail

/-- The part of the path below a base, as it is written, if the base's components come first. -/
def below? (base p : Path) : Option Path :=
  if base.components.isPrefixOf p.components then
    match piecesAfter base.components.length p.pieces with
    | [(_, some .root)] => some ⟨[slash]⟩
    | pieces => some ⟨[slash].intercalate (pieces.map Prod.fst)⟩
  else
    none

end Path

end MarkdownLinks
