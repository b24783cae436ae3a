import MarkdownLinks.Failure
import MarkdownLinks.Json.Basic
import MarkdownLinks.Report.Basic

/-!
# Reports as JSON

A report is written with all its findings and totals; the members of each object are in
alphabetical order.  A path that is not UTF-8 has no place in JSON, and the report is refused.
-/

namespace MarkdownLinks

namespace Path

/-- The path as a string, if it is UTF-8. -/
def toJson? (p : Path) : Option Json :=
  p.text?.map .string

end Path

namespace Defect

/-- The members of the cause, by the side of the members that every defect has. -/
def toJson? (defect : Defect) : Option Json := do
  let file ← defect.file.toJson?
  let kind := Json.string defect.cause.name
  let line := Json.number defect.line
  let link := Json.string defect.url
  let message := Json.string defect.message
  let text := Json.string defect.text
  match defect.cause with
  | .missingAnchor available missing target =>
    let target ← match target with
      | some path => path.toJson?
      | none => some Json.null
    return .object [
      ("available".toList, .array (available.map .string)), ("file".toList, file),
      ("kind".toList, kind), ("line".toList, line), ("link".toList, link),
      ("message".toList, message), ("missing".toList, .string missing),
      ("target".toList, target), ("text".toList, text)]
  | .refused status =>
    return .object [
      ("file".toList, file), ("kind".toList, kind), ("line".toList, line), ("link".toList, link),
      ("message".toList, message), ("status".toList, .number status), ("text".toList, text)]
  | .missingFile expected =>
    let expected ← expected.toJson?
    return .object [
      ("expected".toList, expected), ("file".toList, file), ("kind".toList, kind),
      ("line".toList, line), ("link".toList, link), ("message".toList, message),
      ("text".toList, text)]

end Defect

namespace Advice

namespace Reason

/-- The member that says more about the reason. -/
def member : Reason → Text × Json
  | directoryWithoutSlash suggestion => ("suggestion".toList, .string suggestion)
  | unverified reason => ("reason".toList, .string reason)
  | missingExtension suggestion => ("suggestion".toList, .string suggestion)

end Reason

def toJson? (advice : Advice) : Option Json := do
  let file ← advice.file.toJson?
  return .object [
    ("file".toList, file), ("kind".toList, .string advice.reason.name),
    ("line".toList, .number advice.line), ("link".toList, .string advice.url),
    advice.reason.member]

end Advice

namespace Report

def toJson? (report : Report) : Option Json := do
  let defects ← report.defects.mapM Defect.toJson?
  let advice ← report.advice.mapM Advice.toJson?
  return .object [
    ("broken_links".toList, .number report.brokenCount), ("errors".toList, .array defects),
    ("success".toList, .bool report.isSuccess),
    ("total_documents".toList, .number report.documents),
    ("total_links".toList, .number report.links), ("warnings".toList, .array advice)]

def renderJson (report : Report) : Except Failure Text :=
  match report.toJson? with
  | some json => .ok (json.pretty 0)
  | none => .error (.json ⟨"path contains invalid UTF-8 characters".toList, 0, 0⟩)

end Report

end MarkdownLinks
