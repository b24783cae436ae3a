import MarkdownLinks.Report.Format
import MarkdownLinks.Settings.File
import MarkdownLinks.Validation

/-!
# The check

One check takes the root and the settings file from the disk, validates the documents and prints
the report.  A failure prints nothing; otherwise the exit code tells whether every link resolves.
-/

namespace MarkdownLinks

namespace CommandLine

/-- The exit code of a run without a report. -/
def failureCode : Nat := 2

/-- What a check is told besides the settings file. -/
structure CheckOptions where
  /-- Probes external links whatever the settings say. -/
  checkExternal : Bool := false
  color : Bool := false
  /-- Names that are left out besides those of the settings. -/
  exclude : List Text := []
  format : Report.Format := .text
  /-- The root as it was given. -/
  repo : Path

namespace CheckOptions

/-- The settings with what the options add. -/
def apply (options : CheckOptions) (settings : Settings) : Settings :=
  { settings with
    checkExternal := settings.checkExternal || options.checkExternal
    exclude := settings.exclude.insertAll options.exclude }

end CheckOptions

/-- What a check prints, and its exit code. -/
structure Printed where
  exitCode : Nat
  stdout : Text

/-- Checks the documents below a root and prints the report; JSON ends with a newline. -/
def check (network : Probe) (disk : Disk) (options : CheckOptions) : Except Failure Printed := do
  let root ← canonicalRoot disk options.repo
  let settings ← Settings.load disk root
  let report ← validate network disk (options.apply settings) root
  let rendered ← report.render root options.format options.color
  let ending := match options.format with
    | .json => ['\n']
    | .text => []
  return ⟨report.exitCode, rendered ++ ending⟩

def logLine (event : String) (path : Path) : Text :=
  "DEBUG ".toList ++ event.toList ++ " ".toList ++ path.display

/-- What a check logs on its way. -/
def checkLog (disk : Disk) (options : CheckOptions) : List Text :=
  match canonicalRoot disk options.repo with
  | .error _ => []
  | .ok root =>
    let file := Settings.filePath root
    let loading :=
      if ((disk.read file).toOption.bind Utf8.decode?).isSome then
        [logLine "loading settings" file]
      else
        []
    let starting :=
      if (Settings.load disk root).isOk then [logLine "starting validation" root] else []
    loading ++ starting

end CommandLine

end MarkdownLinks
