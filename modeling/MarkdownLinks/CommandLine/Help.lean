import MarkdownLinks.Text.Basic

/-!
# Help

The texts that the command prints about itself.
-/

namespace MarkdownLinks

namespace CommandLine

def versionText : Text :=
  unlines ["doclinks 0.1.0".toList]

def shortHelpLines : List String := [
  "Validate relative links and header anchors in markdown",
  "",
  "Usage: doclinks [OPTIONS]",
  "",
  "Options:",
  "      --check-external   Check external HTTP(S) links (requires network)",
  "      --exclude <DIR>    Additional directory name to skip (repeatable)",
  "      --format <FORMAT>  Report format [default: text] [possible values: json, text]",
  "      --no-color         Disable colored output",
  "      --repo <PATH>      Repository root (default: current directory)",
  "  -v, --verbose          Log resolution details to stderr",
  "      --watch            Re-run validation whenever a file under the root changes",
  "  -h, --help             Print help (see more with '--help')",
  "  -V, --version          Print version",
  "",
  "Exit codes: 0 all links valid, 1 broken links found, 2 script error"]

def longHelpLines : List String := [
  "Validate relative links and header anchors in markdown",
  "",
  "Usage: doclinks [OPTIONS]",
  "",
  "Options:",
  "      --check-external",
  "          Check external HTTP(S) links (requires network)",
  "",
  "      --exclude <DIR>",
  "          Additional directory name to skip (repeatable)",
  "",
  "      --format <FORMAT>",
  "          Report format",
  "",
  "          Possible values:",
  "          - json: Machine-readable report on stdout",
  "          - text: Colored, itemized report for terminals",
  "          ",
  "          [default: text]",
  "",
  "      --no-color",
  "          Disable colored output",
  "",
  "      --repo <PATH>",
  "          Repository root (default: current directory)",
  "",
  "  -v, --verbose",
  "          Log resolution details to stderr",
  "",
  "      --watch",
  "          Re-run validation whenever a file under the root changes",
  "",
  "  -h, --help",
  "          Print help (see a summary with '-h')",
  "",
  "  -V, --version",
  "          Print version",
  "",
  "Exit codes: 0 all links valid, 1 broken links found, 2 script error"]

def helpText (long : Bool) : Text :=
  unlines ((if long then longHelpLines else shortHelpLines).map String.toList)

end CommandLine

end MarkdownLinks
