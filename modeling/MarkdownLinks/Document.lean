import MarkdownLinks.Disk.Lookup
import MarkdownLinks.Failure
import MarkdownLinks.Heading

/-!
# Documents

Documents are read as text whatever their bytes are: what is not UTF-8 is left out, and every line
ending becomes a newline.  The slugs of a document are kept in a cache for the length of a run.
-/

namespace MarkdownLinks

namespace Document

def ofBytes (bytes : Bytes) : Text :=
  LineEnding.unify (Utf8.decodeDropping bytes)

def read (disk : Disk) (p : Path) : Except ReadFault Text :=
  match disk.read p with
  | .ok bytes => .ok (ofBytes bytes)
  | .error cause => .error ⟨p, cause⟩

end Document

/-- The slugs of the documents that were asked for, by the components of their paths. -/
structure AnchorCache where
  entries : List (List Component × TextSet)

namespace AnchorCache

def empty : AnchorCache :=
  ⟨[]⟩

/-- The slugs kept for a path; paths with the same components share an entry. -/
def find? (cache : AnchorCache) (p : Path) : Option TextSet :=
  cache.entries.lookup p.components

def add (cache : AnchorCache) (p : Path) (slugs : TextSet) : AnchorCache :=
  ⟨(p.components, slugs) :: cache.entries⟩

/-- The slugs of the document at a path, and the cache after they were asked for.  The document is
read only if nothing is kept for it, and a failure to read it is not kept. -/
def slugs (cache : AnchorCache) (disk : Disk) (p : Path) :
    Except ReadFault TextSet × AnchorCache :=
  match cache.find? p with
  | some kept => (.ok kept, cache)
  | none =>
    match Document.read disk p with
    | .ok text =>
      let found := Heading.slugs text
      (.ok found, cache.add p found)
    | .error fault => (.error fault, cache)

end AnchorCache

end MarkdownLinks
