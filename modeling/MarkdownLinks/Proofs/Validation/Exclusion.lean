import MarkdownLinks.Proofs.Search.Exclusion
import MarkdownLinks.Proofs.Validation.Complete

/-!
# Runs that leave out more names

Leaving out more names takes the findings about the documents that are left out away from a report,
and changes nothing else.  The names play no part in checking a link, so that links into a directory
that is left out lead where they led.
-/

namespace MarkdownLinks

namespace Sheet

variable {sheet : Sheet} {inspector : Inspector}

/-- Whether the path of a sheet's document, as reports show it, holds none of the names. -/
def avoids (sheet : Sheet) (inspector : Inspector) (texts : List Text) : Bool :=
  (inspector.shown sheet.document).avoids texts

theorem file_of_mem_advice (fresh : sheet.IsFresh inspector) {advice : Advice}
    (mem : advice ∈ sheet.advice) : advice.file = inspector.shown sheet.document := by
  rcases List.mem_flatMap.1 mem with ⟨entry, entryMem, adviceMem⟩
  exact ((isAbout_of_mem_entries fresh entryMem).advice advice adviceMem).1

end Sheet

/-- Findings can be selected sheet by sheet if they are selected alike on each sheet. -/
theorem filter_flatMap_sheets {α : Type} {sheets : List Sheet} {findings : Sheet → List α}
    {selects : α → Bool} {keeps : Sheet → Bool}
    (alike : ∀ sheet ∈ sheets, ∀ finding ∈ findings sheet, selects finding = keeps sheet) :
    (sheets.flatMap findings).filter selects = (sheets.filter keeps).flatMap findings := by
  induction sheets with
  | nil => rfl
  | cons sheet rest ih =>
    have restAlike := ih fun other mem => alike other (List.mem_cons_of_mem sheet mem)
    have here := alike sheet List.mem_cons_self
    rw [List.flatMap_cons, List.filter_append, restAlike, List.filter_cons]
    split
    · next kept =>
      have all : (findings sheet).filter selects = findings sheet := by
        apply List.filter_eq_self.2
        intro finding mem
        rw [here finding mem, kept]
      rw [all, List.flatMap_cons]
    · next notKept =>
      have none : (findings sheet).filter selects = [] := by
        apply List.filter_eq_nil_iff.2
        intro finding mem
        rw [here finding mem]
        exact notKept
      rw [none, List.nil_append]

namespace Inspector

variable {network : Probe} {disk : Disk} {settings : Settings} {root : Path}

/-- Checking a link does not depend on the names that are left out. -/
theorem check_excluding (texts : List Text) (cache : AnchorCache) (source : Path) (link : Link) :
    (inspectorFor network disk (settings.excluding texts) root).check cache source link =
      (inspectorFor network disk settings root).check cache source link :=
  rfl

theorem isInspectable_excluding (texts : List Text) :
    (inspectorFor network disk (settings.excluding texts) root).IsInspectable =
      (inspectorFor network disk settings root).IsInspectable :=
  rfl

theorem sheet_excluding (texts : List Text) :
    (inspectorFor network disk (settings.excluding texts) root).sheet =
      (inspectorFor network disk settings root).sheet :=
  rfl

end Inspector

/-- Whether a report is another one without the documents whose paths hold one of the names; the
sheets are those of the documents of the other one. -/
structure Report.IsWithout (fewer report : Report) (texts : List Text) (inspector : Inspector)
    (sheets : List Sheet) : Prop where
  defects : fewer.defects = report.defects.filter (·.file.avoids texts)
  advice : fewer.advice = report.advice.filter (·.file.avoids texts)
  documents : fewer.documents = (sheets.filter (·.avoids inspector texts)).length
  links : fewer.links =
    ((sheets.filter (·.avoids inspector texts)).map (·.entries.length)).sum

theorem Report.isWithout_ofSheets {sheets : List Sheet} {inspector : Inspector}
    (fresh : ∀ sheet ∈ sheets, sheet.IsFresh inspector) (texts : List Text) :
    (ofSheets (sheets.filter (·.avoids inspector texts))).IsWithout (ofSheets sheets) texts
      inspector sheets where
  defects := by
    symm
    apply filter_flatMap_sheets
    intro sheet mem defect defectMem
    rw [Sheet.file_of_mem_defects (fresh sheet mem) defectMem, Sheet.avoids]
  advice := by
    symm
    apply filter_flatMap_sheets
    intro sheet mem advice adviceMem
    rw [Sheet.file_of_mem_advice (fresh sheet mem) adviceMem, Sheet.avoids]
  documents := rfl
  links := rfl

section Validate

variable {network : Probe} {disk : Disk} {settings : Settings} {given : Path} {report : Report}

/-- A run that leaves out more names reports what the run without them reports about documents whose
paths hold none of the names, and checks links alike. -/
theorem validate_excluding (texts : List Text)
    (valid : validate network disk settings given = .ok report) :
    ∃ (root : Path) (sheets : List Sheet) (fewer : Report),
      canonicalRoot disk given = .ok root ∧
      sheets.map Sheet.document = Search.documents disk settings root ∧
      (∀ sheet ∈ sheets, sheet.IsFresh (inspectorFor network disk settings root)) ∧
      validate network disk (settings.excluding texts) given = .ok fewer ∧
      fewer.IsWithout report texts (inspectorFor network disk settings root) sheets ∧
      ∀ cache source link,
        (inspectorFor network disk (settings.excluding texts) root).check cache source link =
          (inspectorFor network disk settings root).check cache source link := by
  rcases validate_eq_ok_iff.1 valid with ⟨root, canonical, inspectsAll, rfl⟩
  rcases exists_names_of_canonicalRoot canonical with ⟨base, entries, rfl, isDirectory⟩
  generalize sheetsEq : (Search.documents disk settings (.ofNames base)).map
    (inspectorFor network disk settings (.ofNames base)).sheet = sheets
  have fresh : ∀ sheet ∈ sheets,
      sheet.IsFresh (inspectorFor network disk settings (.ofNames base)) := by
    intro sheet mem
    rw [← sheetsEq] at mem
    rcases List.mem_map.1 mem with ⟨document, documentMem, rfl⟩
    exact Inspector.isFresh_sheet (inspectsAll document documentMem)
  have documents : sheets.map Sheet.document =
      Search.documents disk settings (.ofNames base) := by
    rw [← sheetsEq, List.map_map]
    exact List.map_id' _
  have remaining : (Search.documents disk (settings.excluding texts) (.ofNames base)).map
      (inspectorFor network disk (settings.excluding texts) (.ofNames base)).sheet =
        sheets.filter
          (·.avoids (inspectorFor network disk settings (.ofNames base)) texts) := by
    rw [Search.documents_excluding isDirectory, Inspector.sheet_excluding, ← sheetsEq,
      List.filter_map]
    rfl
  -- What is read for the remaining documents has been read in the run without the names, too.
  have inspectsRemaining :
      (inspectorFor network disk (settings.excluding texts) (.ofNames base)).InspectsAll := by
    intro document (mem : document ∈
      Search.documents disk (settings.excluding texts) (.ofNames base))
    rw [Search.documents_excluding isDirectory] at mem
    rw [Inspector.isInspectable_excluding]
    exact inspectsAll document (List.mem_filter.1 mem).1
  have fewer := validate_of_canonicalRoot canonical inspectsRemaining
  rw [remaining] at fewer
  exact ⟨.ofNames base, sheets, _, canonical, documents, fresh, fewer,
    Report.isWithout_ofSheets fresh texts, Inspector.check_excluding texts⟩

/-- The link into the directory that is left out stays sound. -/
theorem validate_excluding_sample :
    ∃ report, validate (fun _ => .reachable) .sample .default (.ofText "/r/d/..".toList) =
        .ok report ∧
      ∃ (root : Path) (sheets : List Sheet) (fewer : Report),
        canonicalRoot .sample (.ofText "/r/d/..".toList) = .ok root ∧
        sheets.map Sheet.document = Search.documents .sample .default root ∧
        (∀ sheet ∈ sheets,
          sheet.IsFresh (inspectorFor (fun _ => .reachable) .sample .default root)) ∧
        validate (fun _ => .reachable) .sample (Settings.default.excluding ["d".toList])
          (.ofText "/r/d/..".toList) = .ok fewer ∧
        fewer.IsWithout report ["d".toList]
          (inspectorFor (fun _ => .reachable) .sample .default root) sheets ∧
        ∀ cache source link,
          (inspectorFor (fun _ => .reachable) .sample
            (Settings.default.excluding ["d".toList]) root).check cache source link =
          (inspectorFor (fun _ => .reachable) .sample .default root).check cache source link := by
  have readable : Disk.sample.Readable := by decide
  have valid := @validate_of_canonicalRoot (fun _ => .reachable) .sample .default _ _
    Disk.canonicalRoot_sample (inspectsAll_of_readable readable Disk.canonicalRoot_sample)
  exact ⟨_, valid, validate_excluding ["d".toList] valid⟩

end Validate

end MarkdownLinks
