import MarkdownLinks.Proofs.Inspection.Cache

/-!
# Runs with one cache

A run passes its cache from check to check and from document to document.  What it gives is what
checking each link alone gives: a sheet holds a document's links with these verdicts, and a run that
ends well is a list of sheets.
-/

namespace MarkdownLinks

namespace Inspection

variable {α β γ : Type} {disk : Disk} {cache : AnchorCache} {elements : List α}
  {inspect : AnchorCache → α → Inspection β}

theorem map_eq_ok_iff {f : α → β} {inspection : Inspection α} {b : β} :
    (inspection.map f).result = .ok b ↔ ∃ a, inspection.result = .ok a ∧ f a = b := by
  cases result : inspection.result with
  | error fault => simp [Inspection.map, result, Except.map]
  | ok a => simp [Inspection.map, result, Except.map]

/-- A run that ends well starts with an inspection that does, and goes on with its cache. -/
theorem exists_of_each_cons {a : α} {rest : List α} {results : List β}
    (done : (each inspect cache (a :: rest)).result = .ok results) :
    ∃ b more, (inspect cache a).result = .ok b ∧
      (each inspect (inspect cache a).cache rest).result = .ok more ∧ results = b :: more := by
  simp only [each] at done
  split at done
  · cases done
  · next b given =>
    cases others : (each inspect (inspect cache a).cache rest).result with
    | error fault =>
      simp only [others] at done
      cases done
    | ok more =>
      simp only [others] at done
      cases done
      exact ⟨b, more, given, rfl, rfl⟩

theorem faithful_each (faithful : cache.Faithful disk)
    (keeps : ∀ cache a, a ∈ elements → cache.Faithful disk →
      (inspect cache a).cache.Faithful disk) :
    (each inspect cache elements).cache.Faithful disk := by
  induction elements generalizing cache with
  | nil => exact faithful
  | cons a rest ih =>
    have after := keeps cache a List.mem_cons_self faithful
    simp only [each]
    split
    · exact after
    · apply ih after
      intro cache b mem
      exact keeps cache b (List.mem_cons_of_mem a mem)

/-- If every inspection that ends well can be recorded together with what it was about, then a
whole run that ends well can be recorded. -/
theorem exists_records_of_each {about : γ → α} {gives : γ → β} {right : γ → Prop} {results : List β}
    (faithful : cache.Faithful disk)
    (step : ∀ cache a, a ∈ elements → cache.Faithful disk →
      (inspect cache a).cache.Faithful disk ∧
        ∀ b, (inspect cache a).result = .ok b → ∃ record, about record = a ∧ gives record = b ∧
          right record)
    (done : (each inspect cache elements).result = .ok results) :
    ∃ records : List γ, records.map about = elements ∧ records.map gives = results ∧
      ∀ record ∈ records, right record := by
  induction elements generalizing cache results with
  | nil =>
    cases done
    exact ⟨[], rfl, rfl, by simp⟩
  | cons a rest ih =>
    rcases step cache a List.mem_cons_self faithful with ⟨after, recorded⟩
    rcases exists_of_each_cons done with ⟨b, more, given, others, rfl⟩
    rcases recorded b given with ⟨record, rfl, rfl, recordRight⟩
    rcases ih after (fun cache b mem => step cache b (List.mem_cons_of_mem _ mem)) others with
      ⟨records, aboutRest, givesRest, restRight⟩
    refine ⟨record :: records, by rw [List.map_cons, aboutRest],
      by rw [List.map_cons, givesRest], ?_⟩
    intro other mem
    rcases List.mem_cons.1 mem with rfl | later
    · exact recordRight
    · exact restRight other later

end Inspection

/-- A document with its links, each with a verdict. -/
structure Sheet where
  document : Path
  entries : List (Link × Verdict)

namespace Sheet

/-- The defects on a sheet, link by link. -/
def defects (sheet : Sheet) : List Defect :=
  sheet.entries.flatMap fun (_, verdict) => verdict.defect.toList

/-- The advice on a sheet, link by link. -/
def advice (sheet : Sheet) : List Advice :=
  sheet.entries.flatMap fun (_, verdict) => verdict.advice

/-- Whether a sheet holds the links that reading its document finds, each with the verdict that
checking it alone, without any slugs kept, gives. -/
def IsFresh (sheet : Sheet) (inspector : Inspector) : Prop :=
  ∃ text, Document.read inspector.disk sheet.document = .ok text ∧
    sheet.entries.map Prod.fst = Link.scan text ∧
    ∀ entry ∈ sheet.entries,
      (inspector.check .empty sheet.document entry.1).result = .ok entry.2

end Sheet

namespace Inspector

variable {inspector : Inspector} {cache : AnchorCache}

theorem faithful_inspectDocument (rootAbsolute : inspector.root.isAbsolute = true)
    {document : Path} (tidy : document.IsTidy) (faithful : cache.Faithful inspector.disk) :
    (inspector.inspectDocument cache document).cache.Faithful inspector.disk := by
  simp only [inspectDocument]
  split
  · exact faithful
  · apply Inspection.faithful_each faithful
    intro cache link _ kept
    exact (check_sameAs kept rootAbsolute tidy link).faithful

/-- Whatever slugs are kept, a document's findings are those of a sheet of fresh verdicts. -/
theorem exists_sheet_of_inspectDocument (rootAbsolute : inspector.root.isAbsolute = true)
    {document : Path} (tidy : document.IsTidy) (faithful : cache.Faithful inspector.disk)
    {findings : Findings}
    (done : (inspector.inspectDocument cache document).result = .ok findings) :
    ∃ sheet : Sheet, sheet.document = document ∧
      Findings.ofVerdicts (sheet.entries.map Prod.snd) = findings ∧ sheet.IsFresh inspector := by
  simp only [inspectDocument] at done
  split at done
  · cases done
  · next text read =>
    have step : ∀ cache link, link ∈ Link.scan text → cache.Faithful inspector.disk →
        (inspector.check cache document link).cache.Faithful inspector.disk ∧
          ∀ verdict, (inspector.check cache document link).result = .ok verdict →
            ∃ entry : Link × Verdict, entry.1 = link ∧ entry.2 = verdict ∧
              (inspector.check .empty document entry.1).result = .ok entry.2 := by
      intro cache link _ kept
      have same := check_sameAs kept rootAbsolute tidy link
      refine ⟨same.faithful, ?_⟩
      intro verdict given
      refine ⟨(link, verdict), rfl, rfl, ?_⟩
      simp only [← same.result, given]
    rcases Inspection.map_eq_ok_iff.1 done with ⟨verdicts, each, rfl⟩
    rcases Inspection.exists_records_of_each faithful step each with ⟨entries, links, rfl, fresh⟩
    exact ⟨⟨document, entries⟩, rfl, rfl, text, read, links, fresh⟩

/-- The report of a run that ends well is that of sheets of fresh verdicts, one for each
document. -/
theorem exists_sheets_of_inspectAll (rootAbsolute : inspector.root.isAbsolute = true)
    {documents : List Path} (tidy : ∀ document ∈ documents, document.IsTidy) {report : Report}
    (done : (inspector.inspectAll .empty documents).result = .ok report) :
    ∃ sheets : List Sheet, sheets.map Sheet.document = documents ∧
      (∀ sheet ∈ sheets, sheet.IsFresh inspector) ∧
      report = .ofFindings (sheets.map fun sheet => .ofVerdicts (sheet.entries.map Prod.snd)) := by
  rcases Inspection.map_eq_ok_iff.1 done with ⟨findings, each, rfl⟩
  have step : ∀ cache document, document ∈ documents → cache.Faithful inspector.disk →
      (inspector.inspectDocument cache document).cache.Faithful inspector.disk ∧
        ∀ findings, (inspector.inspectDocument cache document).result = .ok findings →
          ∃ sheet : Sheet, sheet.document = document ∧
            Findings.ofVerdicts (sheet.entries.map Prod.snd) = findings ∧
            sheet.IsFresh inspector := by
    intro cache document mem faithful
    refine ⟨faithful_inspectDocument rootAbsolute (tidy document mem) faithful, ?_⟩
    intro findings given
    exact exists_sheet_of_inspectDocument rootAbsolute (tidy document mem) faithful given
  rcases Inspection.exists_records_of_each (AnchorCache.faithful_empty inspector.disk) step
    each with ⟨sheets, about, rfl, fresh⟩
  exact ⟨sheets, about, fresh, rfl⟩

end Inspector

end MarkdownLinks
