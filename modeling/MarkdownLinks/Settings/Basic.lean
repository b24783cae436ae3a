import MarkdownLinks.Path.Basic
import MarkdownLinks.Text.Set

/-!
# Settings

What a run can be told: which files are documents, which directories are left out, and whether
external links are asked for over the network.
-/

namespace MarkdownLinks

structure Settings where
  checkExternal : Bool
  /-- The names of files and directories that the search for documents leaves out. -/
  exclude : TextSet
  extension : Text
  /-- How long the answer to one probe is waited for, in seconds. -/
  timeoutSeconds : Nat

namespace Settings

/-- The settings where nothing else is said: metadata of version control and directories of
installed packages are left out. -/
def default : Settings where
  checkExternal := false
  exclude := .ofList
    [".git".toList, "node_modules".toList, ".venv".toList, "venv".toList]
  extension := "md".toList
  timeoutSeconds := 10

/-- The extension of documents with its full stop. -/
def dottedExtension (settings : Settings) : Text :=
  '.' :: settings.extension

/-- Whether the extension of a path is that of documents. -/
def isDocumentName (settings : Settings) (p : Path) : Bool :=
  p.extension? == some (Utf8.encode settings.extension)

/-- Whether a path, as it is displayed, ends with the extension of documents. -/
def endsAsDocument (settings : Settings) (p : Path) : Bool :=
  p.endsWith settings.dottedExtension

def excludes (settings : Settings) (name : Text) : Bool :=
  name ∈ settings.exclude

/-- Whether the name of an entry is left out; a name that is not UTF-8 never is. -/
def excludesName (settings : Settings) (name : Name) : Bool :=
  (Utf8.decode? name.bytes).any settings.excludes

end Settings

end MarkdownLinks
