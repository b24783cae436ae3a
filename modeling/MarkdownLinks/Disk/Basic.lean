import MarkdownLinks.Disk.Error
import MarkdownLinks.Path.Basic

/-!
# Disks

The state of a file system, as far as the names, the kinds and the contents of its entries go.  A
directory's listing is a list of entries with different names; a disk is the listing of the root
directory together with the directory in which relative paths start.  A file may be there and still
not be readable; then it is kept why.
-/

namespace MarkdownLinks

/-- What reading a file gives: its bytes, or the reason why it cannot be read. -/
inductive Content where
  | bytes (bytes : Bytes)
  | unreadable (cause : IoError)
  deriving DecidableEq

inductive Listing where
  | empty
  | file (name : Name) (content : Content) (rest : Listing)
  | link (name : Name) (target : Path) (rest : Listing)
  | directory (name : Name) (entries : Listing) (rest : Listing)
  deriving DecidableEq

inductive Entry where
  | file (content : Content)
  | link (target : Path)
  | directory (entries : Listing)
  deriving DecidableEq

namespace Listing

def names : Listing → List Name
  | .empty => []
  | .file name _ rest => name :: rest.names
  | .link name _ rest => name :: rest.names
  | .directory name _ rest => name :: rest.names

/-- Whether the names differ, here and in all directories below. -/
def Distinct : Listing → Prop
  | .empty => True
  | .file name _ rest => name ∉ rest.names ∧ rest.Distinct
  | .link name _ rest => name ∉ rest.names ∧ rest.Distinct
  | .directory name entries rest => name ∉ rest.names ∧ entries.Distinct ∧ rest.Distinct

def find? (name : Name) : Listing → Option Entry
  | .empty => none
  | .file n content rest => if n = name then some (.file content) else find? name rest
  | .link n target rest => if n = name then some (.link target) else find? name rest
  | .directory n entries rest => if n = name then some (.directory entries) else find? name rest

/-- What is reached by going down through names, from entry to entry and through no link. -/
def at? (listing : Listing) : List Name → Option Entry
  | [] => some (.directory listing)
  | name :: rest =>
    match listing.find? name with
    | some (.directory entries) => entries.at? rest
    | some entry => if rest.isEmpty then some entry else none
    | none => none

def cons (name : Name) (entry : Entry) (rest : Listing) : Listing :=
  match entry with
  | .file content => .file name content rest
  | .link target => .link name target rest
  | .directory entries => .directory name entries rest

def erase (name : Name) : Listing → Listing
  | .empty => empty
  | .file n content rest => if n = name then rest else file n content (erase name rest)
  | .link n target rest => if n = name then rest else link n target (erase name rest)
  | .directory n entries rest => if n = name then rest else directory n entries (erase name rest)

def set (name : Name) (entry : Entry) (listing : Listing) : Listing :=
  cons name entry (listing.erase name)

/-- The entries of the directory with a name, if there is one. -/
def entriesOf (name : Name) (listing : Listing) : Listing :=
  match listing.find? name with
  | some (.directory entries) => entries
  | _ => empty

/-- The listing with an entry at the end of a list of names; directories that lack on the way are
made. -/
def put (entry : Entry) : List Name → Listing → Listing
  | [], listing => listing
  | [name], listing => listing.set name entry
  | name :: below, listing =>
    listing.set name (.directory (put entry below (listing.entriesOf name)))

/-- The listing without the entry at the end of a list of names. -/
def remove : List Name → Listing → Listing
  | [], listing => listing
  | [name], listing => listing.erase name
  | name :: below, listing =>
    match listing.find? name with
    | some (.directory entries) => listing.set name (.directory (remove below entries))
    | _ => listing

end Listing

namespace Entry

def Distinct : Entry → Prop
  | .directory entries => entries.Distinct
  | _ => True

end Entry

namespace Listing

theorem mem_names_of_mem_erase {name other : Name} {listing : Listing}
    (otherMem : other ∈ (listing.erase name).names) : other ∈ listing.names := by
  induction listing <;> grind [erase, names]

theorem Distinct.erase {name : Name} {listing : Listing} (distinct : listing.Distinct) :
    (listing.erase name).Distinct := by
  induction listing <;> grind [Listing.erase, Distinct, mem_names_of_mem_erase]

theorem not_mem_names_erase {name : Name} {listing : Listing} (distinct : listing.Distinct) :
    name ∉ (listing.erase name).names := by
  induction listing <;> grind [erase, names, Distinct]

theorem Distinct.set {name : Name} {entry : Entry} {listing : Listing}
    (distinct : listing.Distinct) (below : entry.Distinct) :
    (listing.set name entry).Distinct := by
  have absent : name ∉ (listing.erase name).names := not_mem_names_erase distinct
  have kept : (listing.erase name).Distinct := distinct.erase
  cases entry <;> grind [Listing.set, cons, Distinct, Entry.Distinct]

theorem Distinct.of_find? {name : Name} {entry : Entry} {listing : Listing}
    (distinct : listing.Distinct) (found : listing.find? name = some entry) :
    entry.Distinct := by
  induction listing <;> grind [find?, Distinct, Entry.Distinct]

theorem Distinct.entriesOf {name : Name} {listing : Listing} (distinct : listing.Distinct) :
    (listing.entriesOf name).Distinct := by
  unfold Listing.entriesOf
  split
  · next found => exact distinct.of_find? found
  · trivial

theorem Distinct.put {entry : Entry} {names : List Name} {listing : Listing}
    (distinct : listing.Distinct) (below : entry.Distinct) :
    (listing.put entry names).Distinct := by
  induction names generalizing listing with
  | nil => exact distinct
  | cons name rest ih =>
    cases rest with
    | nil => exact distinct.set below
    | cons next more => exact distinct.set (ih distinct.entriesOf)

theorem Distinct.remove {names : List Name} {listing : Listing} (distinct : listing.Distinct) :
    (listing.remove names).Distinct := by
  induction names generalizing listing with
  | nil => exact distinct
  | cons name rest ih =>
    cases rest with
    | nil => exact distinct.erase
    | cons next more =>
      unfold Listing.remove
      split
      · next found => exact distinct.set (ih (distinct.of_find? found))
      · exact distinct

end Listing

/-- The state of a file system. -/
structure Disk where
  root : Listing
  distinct : root.Distinct
  /-- The directory in which relative paths start, as the names that lead to it. -/
  cwd : List Name

namespace Disk

def empty : Disk where
  root := .empty
  distinct := trivial
  cwd := []

def at? (disk : Disk) (names : List Name) : Option Entry :=
  disk.root.at? names

def putFile (disk : Disk) (names : List Name) (content : Content) : Disk where
  root := disk.root.put (.file content) names
  distinct := disk.distinct.put trivial
  cwd := disk.cwd

def putLink (disk : Disk) (names : List Name) (target : Path) : Disk where
  root := disk.root.put (.link target) names
  distinct := disk.distinct.put trivial
  cwd := disk.cwd

def putDirectory (disk : Disk) (names : List Name) : Disk where
  root := disk.root.put (.directory .empty) names
  distinct := disk.distinct.put trivial
  cwd := disk.cwd

def remove (disk : Disk) (names : List Name) : Disk where
  root := disk.root.remove names
  distinct := disk.distinct.remove
  cwd := disk.cwd

end Disk

end MarkdownLinks
