import MarkdownLinks.Disk.Lookup
import MarkdownLinks.Settings.Basic

/-!
# The search for documents

All documents below a root are found by going down from directory to directory.  Directories that
are left out are not entered, and neither are symbolic links; a link to a file is itself a
document if its name is one.
-/

namespace MarkdownLinks

namespace Search

/-- The paths of all entries below the directory at `here`, as far as they are not left out. -/
def below (settings : Settings) (here : Path) : Listing → List Path
  | .empty => []
  | .file name _ rest | .link name _ rest =>
    if settings.excludesName name then
      below settings here rest
    else
      here.child name :: below settings here rest
  | .directory name entries rest =>
    if settings.excludesName name then
      below settings here rest
    else
      here.child name :: below settings (here.child name) entries ++ below settings here rest

/-- All paths that the search comes by, starting with the root itself. -/
def visited (disk : Disk) (settings : Settings) (root : Path) : List Path :=
  root ::
    match disk.entry root with
    | .ok (.directory entries) => below settings root entries
    | _ => []

/-- Whether a path is a document: a file, through links, with the extension of documents. -/
def isDocument (disk : Disk) (settings : Settings) (p : Path) : Bool :=
  settings.isDocumentName p && disk.isFile p

/-- The documents below a root, in the order of their components. -/
def documents (disk : Disk) (settings : Settings) (root : Path) : List Path :=
  ((visited disk settings root).filter (isDocument disk settings)).mergeSort Path.le

end Search

end MarkdownLinks
