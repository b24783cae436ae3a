import MarkdownLinks.Report.AsJson
import MarkdownLinks.Report.AsText

/-!
# Formats of reports

A report is written for people or as JSON.
-/

namespace MarkdownLinks

namespace Report

inductive Format where
  | json
  | text
  deriving DecidableEq

/-- The report in a format.  Only JSON can fail, and only text has color. -/
def render (report : Report) (root : Path) (format : Format) (color : Bool) :
    Except Failure Text :=
  match format with
  | .json => report.renderJson
  | .text => .ok (report.renderText root color)

end Report

end MarkdownLinks
