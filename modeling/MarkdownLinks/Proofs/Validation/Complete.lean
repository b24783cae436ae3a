import MarkdownLinks.Proofs.Inspection.Soundness
import MarkdownLinks.Proofs.Validation.Report

/-!
# When runs end with a report

Once the root is canonical, only reading can fail: the search only finds files, and a check only
reads its own document and paths that it has found to be files.  So a run ends with a report exactly
if all documents can be read and so can the files whose headings their links ask for, and always if
all files can be read.  The report can be written down without the cache, as that of the sheets of
all documents.
-/

namespace MarkdownLinks

namespace Inspection

variable {α β : Type} {disk : Disk} {cache : AnchorCache} {elements : List α}
  {inspect : AnchorCache → α → Inspection β}

/-- A run in which no inspection fails does not fail. -/
theorem exists_each_eq_ok (faithful : cache.Faithful disk)
    (step : ∀ cache a, a ∈ elements → cache.Faithful disk →
      (inspect cache a).cache.Faithful disk ∧ ∃ b, (inspect cache a).result = .ok b) :
    ∃ results, (each inspect cache elements).result = .ok results := by
  induction elements generalizing cache with
  | nil => exact ⟨[], rfl⟩
  | cons a rest ih =>
    rcases step cache a List.mem_cons_self faithful with ⟨after, b, given⟩
    rcases ih after (fun cache b mem => step cache b (List.mem_cons_of_mem a mem)) with
      ⟨results, others⟩
    refine ⟨b :: results, ?_⟩
    simp only [each, given, others]
    rfl

end Inspection

namespace Inspector

variable {inspector : Inspector} {source document : Path} {link : Link} {cache : AnchorCache}

section Check

variable {target : Path} {fragment : Option Text}

theorem exists_checkAnchor_eq_ok {text fragment message : Text} {shownTarget : Option Path}
    {soFar sound : List Advice} (read : Document.read inspector.disk target = .ok text) :
    ∃ verdict, (inspector.checkAnchor source link .empty target fragment message shownTarget soFar
      sound).result = .ok verdict :=
  ⟨_, checkAnchor_of_read read⟩

theorem exists_checkFragment_eq_ok {soFar : List Advice} (readable : inspector.disk.Readable) :
    ∃ verdict, (inspector.checkFragment source link .empty target fragment soFar).result =
      .ok verdict := by
  simp only [checkFragment]
  split
  · next anchor asked =>
    have hasAnchors : inspector.hasAnchors target = true := (Option.filter_eq_some_iff.1 asked).2
    have isFile : inspector.disk.isFile target = true := (Bool.and_eq_true_iff.1 hasAnchors).1
    rcases Document.exists_read_of_isFile readable isFile with ⟨text, read⟩
    exact exists_checkAnchor_eq_ok read
  · exact ⟨_, rfl⟩

/-- Where all files can be read, a check gives a verdict whenever its own document is a file. -/
theorem exists_check_eq_ok (readable : inspector.disk.Readable)
    (isFile : inspector.disk.isFile source = true) (link : Link) :
    ∃ verdict, (inspector.check .empty source link).result = .ok verdict := by
  simp only [check]
  split
  · simp only [checkExternal]
    split
    · split
      · exact ⟨_, rfl⟩
      · exact ⟨_, rfl⟩
    · exact ⟨_, rfl⟩
  · rcases Document.exists_read_of_isFile readable isFile with ⟨text, read⟩
    exact exists_checkAnchor_eq_ok read
  · simp only [checkFile]
    split
    · exact ⟨_, rfl⟩
    · split
      · exact exists_checkFragment_eq_ok readable
      · exact exists_checkFragment_eq_ok readable
      · exact ⟨_, rfl⟩

end Check

/-- The verdict on a link when its check is the only one. -/
def verdict (inspector : Inspector) (source : Path) (link : Link) : Verdict :=
  match (inspector.check .empty source link).result with
  | .ok verdict => verdict
  | .error _ => .sound

/-- The links of a document, each with the verdict of its own. -/
def sheet (inspector : Inspector) (document : Path) : Sheet where
  document := document
  entries :=
    match Document.read inspector.disk document with
    | .ok text => (Link.scan text).map fun link => (link, inspector.verdict document link)
    | .error _ => []

theorem verdict_eq_of_check {verdict : Verdict}
    (checked : (inspector.check .empty source link).result = .ok verdict) :
    inspector.verdict source link = verdict := by
  rw [Inspector.verdict, checked]

theorem eq_sheet_of_isFresh {sheet : Sheet} (fresh : sheet.IsFresh inspector) :
    sheet = inspector.sheet sheet.document := by
  rcases sheet with ⟨document, entries⟩
  rcases fresh with ⟨text, read, links, checked⟩
  simp only at read links checked
  have same : entries = entries.map fun entry =>
      (entry.1, inspector.verdict document entry.1) := by
    refine (List.map_id' _).symm.trans (List.map_congr_left ?_)
    intro entry mem
    rw [verdict_eq_of_check (checked entry mem)]
  have written : (inspector.sheet document).entries =
      (entries.map Prod.fst).map fun link => (link, inspector.verdict document link) := by
    simp only [Inspector.sheet, read, links]
  rw [List.map_map] at written
  rw [Sheet.mk.injEq]
  exact ⟨rfl, same.trans written.symm⟩

/-- Whether nothing fails when a document is inspected alone: it can be read, and every check of one
of its links gives a verdict. -/
def IsInspectable (inspector : Inspector) (document : Path) : Prop :=
  ∃ text, Document.read inspector.disk document = .ok text ∧
    ∀ link ∈ Link.scan text, ∃ verdict,
      (inspector.check .empty document link).result = .ok verdict

/-- Whether nothing fails when the documents of the search are inspected. -/
def InspectsAll (inspector : Inspector) : Prop :=
  ∀ document ∈ Search.documents inspector.disk inspector.settings inspector.root,
    inspector.IsInspectable document

theorem isInspectable_of_readable (readable : inspector.disk.Readable)
    (isFile : inspector.disk.isFile document = true) : inspector.IsInspectable document := by
  rcases Document.exists_read_of_isFile readable isFile with ⟨text, read⟩
  exact ⟨text, read, fun link _ => exists_check_eq_ok readable isFile link⟩

theorem isInspectable_of_isFresh {sheet : Sheet} (fresh : sheet.IsFresh inspector) :
    inspector.IsInspectable sheet.document := by
  rcases fresh with ⟨text, read, links, checked⟩
  refine ⟨text, read, ?_⟩
  intro link mem
  rw [← links] at mem
  rcases List.mem_map.1 mem with ⟨entry, entryMem, rfl⟩
  exact ⟨entry.2, checked entry entryMem⟩

theorem isFresh_sheet (inspectable : inspector.IsInspectable document) :
    (inspector.sheet document).IsFresh inspector := by
  rcases inspectable with ⟨text, read, checks⟩
  have entries : (inspector.sheet document).entries =
      (Link.scan text).map fun link => (link, inspector.verdict document link) := by
    simp only [Inspector.sheet, read]
  refine ⟨text, read, ?_, ?_⟩
  · rw [entries, List.map_map]
    exact List.map_id' _
  · intro entry mem
    rw [entries] at mem
    rcases List.mem_map.1 mem with ⟨link, linkMem, rfl⟩
    rcases checks link linkMem with ⟨verdict, checked⟩
    rw [verdict_eq_of_check checked]
    exact checked

/-- Whether some link of some document is checked with a defect. -/
def FindsDefect (inspector : Inspector) : Prop :=
  ∃ document ∈ Search.documents inspector.disk inspector.settings inspector.root,
    ∃ text, Document.read inspector.disk document = .ok text ∧
      ∃ link ∈ Link.scan text, ∃ verdict,
        (inspector.check .empty document link).result = .ok verdict ∧ verdict.isSound = false

/-- A sheet holds defects exactly if checking a link of its document alone finds one. -/
theorem defects_sheet_ne_nil_iff (inspectable : inspector.IsInspectable document) :
    (inspector.sheet document).defects ≠ [] ↔
      ∃ text, Document.read inspector.disk document = .ok text ∧
        ∃ link ∈ Link.scan text, ∃ verdict,
          (inspector.check .empty document link).result = .ok verdict ∧
            verdict.isSound = false := by
  rcases isFresh_sheet inspectable with ⟨text, read, links, checked⟩
  constructor
  · intro nonempty
    rcases List.exists_mem_of_ne_nil _ nonempty with ⟨defect, mem⟩
    rcases Sheet.exists_entry_of_mem_defects mem with ⟨entry, entryMem, isDefect⟩
    refine ⟨text, read, entry.1, ?_, entry.2, checked entry entryMem, ?_⟩
    · rw [← links]
      exact List.mem_map_of_mem entryMem
    · rw [Verdict.isSound, Option.mem_def.1 isDefect]
      rfl
  · rintro ⟨other, otherRead, link, linkMem, verdict, isChecked, unsound⟩
    cases otherRead.symm.trans read
    rw [← links] at linkMem
    rcases List.mem_map.1 linkMem with ⟨entry, entryMem, rfl⟩
    cases isChecked.symm.trans (checked entry entryMem)
    cases isDefect : entry.2.defect with
    | none =>
      rw [Verdict.isSound, isDefect] at unsound
      cases unsound
    | some defect =>
      apply List.ne_nil_of_mem (a := defect)
      apply List.mem_flatMap.2
      exact ⟨entry, entryMem, Option.mem_toList.2 isDefect⟩

section Run

variable (rootAbsolute : inspector.root.isAbsolute = true)

include rootAbsolute

theorem exists_inspectDocument_eq_ok (faithful : cache.Faithful inspector.disk)
    (tidy : document.IsTidy) (inspectable : inspector.IsInspectable document) :
    ∃ findings, (inspector.inspectDocument cache document).result = .ok findings := by
  rcases inspectable with ⟨text, read, checks⟩
  have step : ∀ cache link, link ∈ Link.scan text → cache.Faithful inspector.disk →
      (inspector.check cache document link).cache.Faithful inspector.disk ∧
        ∃ verdict, (inspector.check cache document link).result = .ok verdict := by
    intro cache link mem kept
    have same := check_sameAs kept rootAbsolute tidy link
    rcases checks link mem with ⟨verdict, checked⟩
    exact ⟨same.faithful, verdict, same.result.trans checked⟩
  rcases Inspection.exists_each_eq_ok faithful step with ⟨verdicts, each⟩
  refine ⟨.ofVerdicts verdicts, ?_⟩
  simp only [inspectDocument, read, Inspection.map, each]
  rfl

theorem exists_inspectAll_eq_ok {documents : List Path}
    (tidy : ∀ document ∈ documents, document.IsTidy)
    (inspectable : ∀ document ∈ documents, inspector.IsInspectable document) :
    ∃ report, (inspector.inspectAll .empty documents).result = .ok report := by
  have step : ∀ cache document, document ∈ documents → cache.Faithful inspector.disk →
      (inspector.inspectDocument cache document).cache.Faithful inspector.disk ∧
        ∃ findings, (inspector.inspectDocument cache document).result = .ok findings := by
    intro cache document mem faithful
    exact ⟨faithful_inspectDocument rootAbsolute (tidy document mem) faithful,
      exists_inspectDocument_eq_ok rootAbsolute faithful (tidy document mem)
        (inspectable document mem)⟩
  rcases Inspection.exists_each_eq_ok (AnchorCache.faithful_empty inspector.disk) step with
    ⟨findings, each⟩
  refine ⟨.ofFindings findings, ?_⟩
  simp only [inspectAll, Inspection.map, each]
  rfl

end Run

end Inspector

/-- The report that says of sheets what there is to say. -/
def Report.ofSheets (sheets : List Sheet) : Report where
  defects := sheets.flatMap Sheet.defects
  documents := sheets.length
  links := (sheets.map (·.entries.length)).sum
  advice := sheets.flatMap Sheet.advice

section Validate

variable {network : Probe} {disk : Disk} {settings : Settings} {given root : Path}

/-- Below a canonical root, a run ends with the report of the sheets of all documents, if these can
be inspected. -/
theorem validate_of_canonicalRoot (canonical : canonicalRoot disk given = .ok root)
    (inspectsAll : (inspectorFor network disk settings root).InspectsAll) :
    validate network disk settings given =
      .ok (.ofSheets ((Search.documents disk settings root).map
        (inspectorFor network disk settings root).sheet)) := by
  have rootAbsolute : (inspectorFor network disk settings root).root.isAbsolute = true :=
    isAbsolute_of_canonicalRoot canonical
  have areTidy : ∀ document ∈ Search.documents disk settings root, document.IsTidy :=
    fun document mem => Search.isTidy_of_canonicalRoot canonical mem
  rcases Inspector.exists_inspectAll_eq_ok rootAbsolute areTidy inspectsAll with ⟨report, done⟩
  rcases Inspector.exists_sheets_of_inspectAll rootAbsolute areTidy done with
    ⟨sheets, documents, fresh, written⟩
  have sheetsEq : sheets = (Search.documents disk settings root).map
      (inspectorFor network disk settings root).sheet := by
    rw [← documents, List.map_map]
    refine (List.map_id' _).symm.trans (List.map_congr_left ?_)
    intro sheet mem
    exact Inspector.eq_sheet_of_isFresh (fresh sheet mem)
  rw [Report.ofFindings_sheets, sheetsEq] at written
  simp only [validate, canonical, bind, Except.bind, done, Except.mapError, written]
  rfl

/-- A run that ends with a report has inspected all documents. -/
theorem inspectsAll_of_validate {report : Report} (canonical : canonicalRoot disk given = .ok root)
    (valid : validate network disk settings given = .ok report) :
    (inspectorFor network disk settings root).InspectsAll := by
  rcases Inspector.exists_sheets_of_inspectAll (isAbsolute_of_canonicalRoot canonical)
    (fun document mem => Search.isTidy_of_canonicalRoot canonical mem)
    (inspectAll_of_validate canonical valid) with ⟨sheets, documents, fresh, -⟩
  intro document mem
  have isListed : document ∈ sheets.map Sheet.document := documents ▸ mem
  rcases List.mem_map.1 isListed with ⟨sheet, sheetMem, rfl⟩
  exact Inspector.isInspectable_of_isFresh (fresh sheet sheetMem)

theorem validate_eq_ok_iff {report : Report} :
    validate network disk settings given = .ok report ↔
      ∃ root, canonicalRoot disk given = .ok root ∧
        (inspectorFor network disk settings root).InspectsAll ∧
        report = .ofSheets ((Search.documents disk settings root).map
          (inspectorFor network disk settings root).sheet) := by
  constructor
  · intro valid
    rcases exists_canonicalRoot_of_validate valid with ⟨root, canonical⟩
    have inspectsAll := inspectsAll_of_validate canonical valid
    rw [validate_of_canonicalRoot canonical inspectsAll] at valid
    exact ⟨root, canonical, inspectsAll, (Except.ok.inj valid).symm⟩
  · rintro ⟨root, canonical, inspectsAll, rfl⟩
    exact validate_of_canonicalRoot canonical inspectsAll

/-- Where all files can be read, nothing fails in a run. -/
theorem inspectsAll_of_readable (readable : disk.Readable)
    (canonical : canonicalRoot disk given = .ok root) :
    (inspectorFor network disk settings root).InspectsAll :=
  fun _ mem => Inspector.isInspectable_of_readable readable
    (Search.isFile_of_canonicalRoot canonical mem)

/-- A report has defects exactly if checking some link alone finds one. -/
theorem Report.defects_ofSheets_eq_nil_iff
    (inspectsAll : (inspectorFor network disk settings root).InspectsAll) :
    (ofSheets ((Search.documents disk settings root).map
      (inspectorFor network disk settings root).sheet)).defects = [] ↔
        ¬ (inspectorFor network disk settings root).FindsDefect := by
  rw [ofSheets, List.flatMap_map, List.flatMap_eq_nil_iff]
  constructor
  · rintro none ⟨document, mem, finds⟩
    exact (Inspector.defects_sheet_ne_nil_iff (inspectsAll document mem)).2 finds
      (none document mem)
  · intro findsNone document mem
    by_contra nonempty
    exact findsNone ⟨document, mem,
      (Inspector.defects_sheet_ne_nil_iff (inspectsAll document mem)).1 nonempty⟩

theorem validate_eq_error_iff (readable : disk.Readable) {failure : Failure} :
    validate network disk settings given = .error failure ↔
      canonicalRoot disk given = .error failure := by
  cases canonical : canonicalRoot disk given with
  | error refusal =>
    have same : validate network disk settings given = .error refusal := by
      simp only [validate, canonical]
      rfl
    rw [same, Except.error.injEq, Except.error.injEq]
  | ok root =>
    rw [validate_of_canonicalRoot canonical (inspectsAll_of_readable readable canonical)]
    constructor
    · intro failed
      cases failed
    · intro failed
      cases failed

/-- Where all files can be read, every call for a document of a run ends with a verdict, whichever
calls have been made. -/
theorem Inspector.exists_verdict_of_mem_answers (readable : disk.Readable)
    (canonical : canonicalRoot disk given = .ok root)
    (probe : Option Probe) {calls : List (Path × Link)}
    (documents : ∀ call ∈ calls, call.1 ∈ Search.documents disk settings root)
    {answer : Except ReadFault Verdict × List Text}
    (mem : answer ∈ answers ⟨disk, settings, root, probe⟩ .empty calls) :
    ∃ verdict, answer.1 = .ok verdict := by
  have alone : answers ⟨disk, settings, root, probe⟩ .empty calls =
      calls.map (answerAlone ⟨disk, settings, root, probe⟩) := by
    apply answers_of_faithful
    · exact AnchorCache.faithful_empty disk
    · exact isAbsolute_of_canonicalRoot canonical
    · intro call callMem
      exact Search.isTidy_of_canonicalRoot canonical (documents call callMem)
  rw [alone] at mem
  rcases List.mem_map.1 mem with ⟨call, callMem, rfl⟩
  have isFile : disk.isFile call.1 = true :=
    Search.isFile_of_canonicalRoot canonical (documents call callMem)
  exact exists_check_eq_ok readable isFile call.2

variable (network settings given)

/-- Where all files can be read, a run fails if and only if its root cannot be used, and says so with
the root as it was given.  Below any other root there is a report, every document can be read, and so
can all that the links of any documents ask for, in whatever order they are checked. -/
theorem validate_fails_only_without_root (readable : disk.Readable) :
    (∀ failure, validate network disk settings given = .error failure ↔
      failure = .noRoot given ∧ canonicalRoot disk given = .error failure) ∧
    ∀ root, canonicalRoot disk given = .ok root →
      (∃ report, validate network disk settings given = .ok report) ∧
      (∀ document ∈ Search.documents disk settings root,
        ∃ text, Document.read disk document = .ok text) ∧
      ∀ (probe : Option Probe) (calls : List (Path × Link)),
        (∀ call ∈ calls, call.1 ∈ Search.documents disk settings root) →
        ∀ answer ∈ Inspector.answers ⟨disk, settings, root, probe⟩ .empty calls,
          ∃ verdict, answer.1 = .ok verdict := by
  constructor
  · intro failure
    rw [validate_eq_error_iff readable]
    constructor
    · intro refused
      exact ⟨canonicalRoot_eq_error refused, refused⟩
    · intro refused
      exact refused.2
  · intro root canonical
    refine ⟨⟨_, validate_of_canonicalRoot canonical (inspectsAll_of_readable readable canonical)⟩,
      ?_, ?_⟩
    · intro document mem
      exact Document.exists_read_of_isFile readable (Search.isFile_of_canonicalRoot canonical mem)
    · intro probe calls documents answer mem
      exact Inspector.exists_verdict_of_mem_answers readable canonical probe documents mem

theorem validate_fails_only_without_root_sample :
    Disk.sample.Readable ∧
    (∃ report, validate (fun _ => .reachable) .sample .default (.ofText "/r/d/..".toList) =
      .ok report) ∧
    validate (fun _ => .reachable) .sample .default (.ofText "/r/x".toList) =
      .error (.noRoot (.ofText "/r/x".toList)) := by
  have readable : Disk.sample.Readable := by decide
  refine ⟨readable, ?_, ?_⟩
  · exact ((validate_fails_only_without_root _ _ _ readable).2 _ Disk.canonicalRoot_sample).1
  · exact ((validate_fails_only_without_root _ _ _ readable).1 _).2 ⟨rfl, rfl⟩

end Validate

end MarkdownLinks
