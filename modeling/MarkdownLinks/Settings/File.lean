import MarkdownLinks.Disk.Lookup
import MarkdownLinks.Failure

/-!
# The settings file

Settings are taken from a file in the root directory, if there is one.  A file that is there and
cannot be used is a failure, never a reason to go on with the defaults.
-/

namespace MarkdownLinks

namespace Settings

def filePath (root : Path) : Path :=
  root.join (.ofText settingsFileName)

def load (disk : Disk) (root : Path) : Except Failure Settings :=
  match disk.read (filePath root) with
  | .error .notFound => .ok default
  | .error cause => .error (.io cause)
  | .ok bytes =>
    match Utf8.decode? bytes with
    | none => .error (.io .notText)
    | some text => (read text).mapError .badSettings

end Settings

end MarkdownLinks
