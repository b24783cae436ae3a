import MarkdownLinks.CommandLine.Arguments
import MarkdownLinks.CommandLine.Check
import MarkdownLinks.CommandLine.Help

/-!
# Runs of the command

A run reads its arguments, does what they ask for, and says how it ended.
-/

namespace MarkdownLinks

namespace CommandLine

structure Output where
  exitCode : Nat
  stdout : Text := []
  stderr : Text := []
  /-- Whether the run goes on and waits for changes of files. -/
  watching : Bool := false

/-- The outer world as far as a run can see it. -/
structure World where
  disk : Disk
  network : Probe
  /-- Whether standard output is a terminal. -/
  terminal : Bool

/-- The options of the check that an invocation asks for; the root is the current directory where
nothing else is said, and color is for terminals. -/
def Invocation.options (invocation : Invocation) (terminal : Bool) : CheckOptions where
  checkExternal := invocation.checkExternal
  color := terminal && !invocation.noColor
  exclude := invocation.exclude
  format := invocation.format.getD .text
  repo := .ofText (invocation.repo.getD ['.'])

def failed (options : CheckOptions) (failure : Failure) : Output where
  exitCode := failureCode
  stderr := Diagnostic.printed options.color failure.diagnostic

/-- One check, with a failure printed as a diagnostic. -/
def checkOnce (world : World) (verbose : Bool) (options : CheckOptions) : Output :=
  let log := if verbose then unlines (checkLog world.disk options) else []
  match check world.network world.disk options with
  | .ok printed => { exitCode := printed.exitCode, stdout := printed.stdout, stderr := log }
  | .error failure =>
    let output := failed options failure
    { output with stderr := log ++ output.stderr }

/-- The beginning of a watch: the root must be there, a first check is made, and the settings must
be fit for use before changes are waited for. -/
def startWatch (world : World) (verbose : Bool) (options : CheckOptions) : Output :=
  match canonicalRoot world.disk options.repo with
  | .error failure => failed options failure
  | .ok root =>
    let first := checkOnce world verbose options
    let begun := { first with stderr := "watch: initial check\n".toList ++ first.stderr }
    match Settings.load world.disk root with
    | .error failure =>
      let output := failed options failure
      { begun with exitCode := output.exitCode, stderr := begun.stderr ++ output.stderr }
    | .ok _ =>
      let waiting := "watch: monitoring ".toList ++ root.display ++
        ", press Ctrl+C to stop\n".toList
      { begun with stderr := begun.stderr ++ waiting, watching := true }

def invoke (world : World) (invocation : Invocation) : Output :=
  let options := invocation.options world.terminal
  if invocation.watch then
    startWatch world invocation.verbose options
  else
    checkOnce world invocation.verbose options

/-- What a run with arguments writes, and how it ends. -/
def run (world : World) (arguments : List Text) : Output :=
  match parse arguments with
  | .ok (.check invocation) => invoke world invocation
  | .ok (.help long) => { exitCode := 0, stdout := helpText long }
  | .ok .version => { exitCode := 0, stdout := versionText }
  | .error error => { exitCode := failureCode, stderr := unlines [error.message] }

end CommandLine

end MarkdownLinks
