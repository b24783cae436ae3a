import MarkdownLinks.Report.Basic
import MarkdownLinks.Text.Number

/-!
# Reports for people

A report lists the defects, then the advice, then a summary with counts and the verdict on the
whole run.  With color, headings and verdicts stand between escape sequences of the terminal.
-/

namespace MarkdownLinks

/-- What a line tells, which decides its color. -/
inductive Tone where
  /-- A failure: red. -/
  | bad
  /-- A pass: green. -/
  | good
  /-- Advice: yellow and bold. -/
  | caution

namespace Tone

/-- The parameters of the escape sequence that switches the color on. -/
def parameters : Tone → Text
  | bad => "31".toList
  | good => "32".toList
  | caution => "33;1".toList

/-- A text in color, between the sequence that switches it on and the one that switches it off. -/
def paint (tone : Tone) (color : Bool) (t : Text) : Text :=
  if color then
    "\x1b[".toList ++ tone.parameters ++ "m".toList ++ t ++ "\x1b[0m".toList
  else
    t

end Tone

/-- A name in snake case as a title: each word with a capital, and blanks between them. -/
def titleCase (snake : Text) : Text :=
  [' '].intercalate ((splitAtEach '_' snake).map fun
    | [] => []
    | first :: rest => first.toUpper :: rest)

namespace Report

def rule : Text :=
  List.replicate 60 '='

def heading (title : Text) (count : Nat) : Text :=
  rule ++ ['\n'] ++ title ++ " (".toList ++ decimal count ++ ")\n".toList ++ rule

/-- Where a finding is: the document and the line. -/
def location (file : Path) (line : Nat) : Text :=
  "  File: ".toList ++ file.display ++ ":".toList ++ decimal line

def causeLines : Defect.Cause → List Text
  | .missingAnchor available _ _ =>
    if available.isEmpty then []
    else ["  Available anchors: ".toList ++ ", ".toList.intercalate available ++ "...".toList]
  | .refused _ => []
  | .missingFile expected => ["  Expected: ".toList ++ expected.display]

def defectLines (color : Bool) (defect : Defect) : List Text :=
  [Tone.bad.paint color ("✗ ".toList ++ titleCase defect.cause.name),
    location defect.file defect.line,
    "  Link: ".toList ++ defect.url,
    "  Text: ".toList ++ defect.text,
    "  ".toList ++ defect.message] ++
  causeLines defect.cause ++ [[]]

def reasonLine : Advice.Reason → Text
  | .directoryWithoutSlash suggestion => "  Suggestion: ".toList ++ suggestion
  | .missingExtension suggestion => "  Suggestion: ".toList ++ suggestion
  | .unverified reason => "  Reason: ".toList ++ reason

def adviceLines (color : Bool) (advice : Advice) : List Text :=
  [Tone.caution.paint color ("⚠ ".toList ++ titleCase advice.reason.name),
    location advice.file advice.line,
    "  Link: ".toList ++ advice.url,
    reasonLine advice.reason,
    []]

/-- A part of the report under a heading; nothing if there is nothing to list. -/
def listing (color : Bool) (tone : Tone) (title : Text) (items : List (List Text)) : List Text :=
  if items.isEmpty then []
  else [[], tone.paint color (heading title items.length), []] ++ items.flatten

def brokenLine (color : Bool) (count : Nat) : Text :=
  if count = 0 then Tone.good.paint color "✓ Broken links:     0".toList
  else Tone.bad.paint color ("✗ Broken links:     ".toList ++ decimal count)

def adviceLine (color : Bool) (count : Nat) : Text :=
  if count = 0 then Tone.good.paint color "✓ Warnings:         0".toList
  else Tone.caution.paint color ("⚠ Warnings:         ".toList ++ decimal count)

def verdictLine (color : Bool) (success : Bool) : Text :=
  if success then Tone.good.paint color "All links are valid!".toList
  else Tone.bad.paint color "Validation failed - please fix broken links".toList

def summaryLines (color : Bool) (report : Report) : List Text :=
  [[], rule, "SUMMARY".toList, rule,
    "Files checked:      ".toList ++ decimal report.documents,
    "Links validated:    ".toList ++ decimal report.links,
    [],
    brokenLine color report.brokenCount,
    adviceLine color report.advice.length,
    rule, [],
    verdictLine color report.isSuccess]

/-- The report of a run over the documents below a root. -/
def renderText (report : Report) (root : Path) (color : Bool) : Text :=
  unlines (
    ["Validating markdown links in ".toList ++ root.display,
      "Found ".toList ++ decimal report.documents ++ " markdown files".toList,
      []] ++
    listing color .bad "ERRORS".toList (report.defects.map (defectLines color)) ++
    listing color .caution "WARNINGS".toList (report.advice.map (adviceLines color)) ++
    summaryLines color report)

end Report

end MarkdownLinks
