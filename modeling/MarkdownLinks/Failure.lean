import MarkdownLinks.Disk.Error
import MarkdownLinks.Json.Fault
import MarkdownLinks.Settings.Reader

/-!
# Failures

A failure ends a run without a report.  It is told in one line, and at length in a diagnostic
with a heading, which a terminal shows in bold.
-/

namespace MarkdownLinks

/-- The name of the settings file in the root directory. -/
def settingsFileName : Text :=
  ".doclinks.toml".toList

/-- A document that cannot be read. -/
structure ReadFault where
  document : Path
  cause : IoError
  deriving DecidableEq

/-- Why a run ends without a report. -/
inductive Failure where
  | unreadable (fault : ReadFault)
  | io (cause : IoError)
  | json (fault : Json.Fault)
  | noRoot (path : Path)
  | badSettings (fault : Settings.Fault)
  | watch (reason : Text)
  deriving DecidableEq

namespace Failure

def message : Failure → Text
  | unreadable fault =>
    "cannot read ".toList ++ fault.document.display ++ ": ".toList ++ fault.cause.message
  | io cause => "io: ".toList ++ cause.message
  | json fault => "json: ".toList ++ fault.message
  | noRoot path => "repository root not found: ".toList ++ path.display
  | badSettings fault => "toml deserialize: ".toList ++ fault.message
  | watch reason => "watcher setup failed: ".toList ++ reason

def fixHeading : Text :=
  "## Fix".toList

/-- What happened, and how to get a full run. -/
def diagnostic (failure : Failure) : Text :=
  match failure with
  | unreadable fault =>
    unlines [
      "# Error: Unreadable Document".toList, [],
      "Could not read `".toList ++ fault.document.display ++ "`: ".toList ++ fault.cause.message, [],
      "Validation stopped before a report could be produced.".toList]
  | noRoot path =>
    unlines [
      "# Error: Repository Root Not Found".toList, [],
      "`".toList ++ path.display ++ "` does not exist or is not a directory.".toList, [],
      fixHeading, [],
      "Pass an existing directory:".toList, [],
      "    doclinks --repo path/to/repo".toList]
  | badSettings fault =>
    unlines [
      "# Error: Invalid ".toList ++ settingsFileName, [],
      fault.message, [],
      fixHeading, [],
      "Correct the file, or delete it to use the defaults.".toList]
  | watch reason =>
    unlines [
      "# Error: Watch Failed".toList, [],
      reason, [],
      fixHeading, [],
      "Run without `--watch` for a one-shot check.".toList]
  | io _ | json _ =>
    unlines ["# Error".toList, [], failure.message]

end Failure

namespace Diagnostic

/-- The lines of a text that is to be printed; a carriage return before the end of a line is left
out, and so is what follows the last newline if it is empty. -/
def printedLines (t : Text) : List Text :=
  let pieces := splitAtEach '\n' t
  let ended := (pieces.dropLast).map fun line =>
    if line.getLast? = some '\r' then line.dropLast else line
  match pieces.getLast? with
  | none | some [] => ended
  | some last => ended ++ [last]

def bold (line : Text) : Text :=
  "\x1b[1m".toList ++ line ++ "\x1b[0m".toList

/-- A diagnostic as it is printed; with color, its headings are bold. -/
def printed (color : Bool) (t : Text) : Text :=
  unlines ((printedLines t).map fun line =>
    if color && line.head? == some '#' then bold line else line)

end Diagnostic

end MarkdownLinks
