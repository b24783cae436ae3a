import Mathlib
import MarkdownLinks.Report.Basic

/-!
# Folding into reports

Folding verdicts and findings keeps all of them, in order, and counts them.
-/

namespace MarkdownLinks

namespace Findings

theorem ofVerdicts_eq (verdicts : List Verdict) :
    ofVerdicts verdicts =
      { defects := verdicts.flatMap (·.defect.toList)
        links := verdicts.length
        advice := verdicts.flatMap (·.advice) } := by
  have folded : ∀ start : Findings, verdicts.foldl record start =
      { defects := start.defects ++ verdicts.flatMap (·.defect.toList)
        links := start.links + verdicts.length
        advice := start.advice ++ verdicts.flatMap (·.advice) } := by
    induction verdicts with
    | nil => simp
    | cons verdict rest ih =>
      intro start
      simp only [List.foldl_cons, ih, record, List.append_assoc, List.flatMap_cons,
        List.length_cons, Findings.mk.injEq, true_and, and_true]
      omega
  simp [ofVerdicts, folded]

end Findings

namespace Report

theorem ofFindings_eq (findings : List Findings) :
    ofFindings findings =
      { defects := findings.flatMap (·.defects)
        documents := findings.length
        links := (findings.map (·.links)).sum
        advice := findings.flatMap (·.advice) } := by
  have folded : ∀ start : Report, findings.foldl absorb start =
      { defects := start.defects ++ findings.flatMap (·.defects)
        documents := start.documents + findings.length
        links := start.links + (findings.map (·.links)).sum
        advice := start.advice ++ findings.flatMap (·.advice) } := by
    induction findings with
    | nil => simp
    | cons one rest ih =>
      intro start
      simp only [List.foldl_cons, ih, absorb, List.append_assoc, List.flatMap_cons,
        List.length_cons, List.map_cons, List.sum_cons, Report.mk.injEq, true_and, and_true]
      omega
  simp [ofFindings, folded]

end Report

end MarkdownLinks
