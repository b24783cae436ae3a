import MarkdownLinks.Finding

/-!
# Reports

Verdicts are folded into the findings of one document, and these into the report of a run.  A run
succeeds if every link resolves; advice does not count.
-/

namespace MarkdownLinks

/-- What checking the links of one document found. -/
structure Findings where
  defects : List Defect := []
  links : Nat := 0
  advice : List Advice := []

namespace Findings

/-- The findings with the verdict on one more link. -/
def record (findings : Findings) (verdict : Verdict) : Findings where
  defects := findings.defects ++ verdict.defect.toList
  links := findings.links + 1
  advice := findings.advice ++ verdict.advice

/-- The findings from the verdicts on the links of a document, in order. -/
def ofVerdicts (verdicts : List Verdict) : Findings :=
  verdicts.foldl record {}

end Findings

/-- What a run found. -/
structure Report where
  defects : List Defect := []
  documents : Nat := 0
  links : Nat := 0
  advice : List Advice := []

namespace Report

/-- The report with the findings of one more document. -/
def absorb (report : Report) (findings : Findings) : Report where
  defects := report.defects ++ findings.defects
  documents := report.documents + 1
  links := report.links + findings.links
  advice := report.advice ++ findings.advice

/-- The report from the findings of the documents, in order. -/
def ofFindings (findings : List Findings) : Report :=
  findings.foldl absorb {}

def brokenCount (report : Report) : Nat :=
  report.defects.length

def isSuccess (report : Report) : Bool :=
  report.defects.isEmpty

def exitCode (report : Report) : Nat :=
  if report.isSuccess then 0 else 1

end Report

end MarkdownLinks
