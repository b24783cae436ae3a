import MarkdownLinks.Proofs.Link.Title
import MarkdownLinks.Proofs.Link.Written
import MarkdownLinks.Proofs.Search.Relocation
import MarkdownLinks.Proofs.Url.Percent
import MarkdownLinks.Proofs.Url.Target
import MarkdownLinks.Proofs.Validation.Complete

/-!
# Runs below one root and another

A tree without links gets the same report wherever it is placed, up to the root in the paths that
defects name, provided that its links stay inside and that no path is looked up that the system
refuses below one of the roots only because it is too long there.
-/

namespace MarkdownLinks

/-- The sheet for the document below another root, with paths below it in place of those below a
root. -/
def Sheet.rebase (sheet : Sheet) (root otherRoot : Path) : Sheet where
  document := sheet.document.rebase root otherRoot
  entries := sheet.entries.map fun entry => (entry.1, entry.2.rebase root otherRoot)

/-- The report with paths below another root in place of those below a root. -/
def Report.rebase (report : Report) (root otherRoot : Path) : Report :=
  { report with defects := report.defects.map (·.rebase root otherRoot) }

section Sheets

variable (root otherRoot : Path)

theorem Sheet.defects_rebase (sheet : Sheet) :
    (sheet.rebase root otherRoot).defects =
      sheet.defects.map (·.rebase root otherRoot) := by
  rcases sheet with ⟨document, entries⟩
  simp only [defects, Sheet.rebase, List.flatMap_map, List.map_flatMap, Verdict.rebase]
  congr 1
  funext entry
  cases entry.2.defect <;> rfl

theorem Sheet.advice_rebase (sheet : Sheet) :
    (sheet.rebase root otherRoot).advice = sheet.advice := by
  rcases sheet with ⟨document, entries⟩
  simp only [advice, Sheet.rebase, List.flatMap_map, Verdict.rebase]

theorem Report.ofSheets_rebase (sheets : List Sheet) :
    ofSheets (sheets.map (·.rebase root otherRoot)) =
      (ofSheets sheets).rebase root otherRoot := by
  simp only [ofSheets, Report.rebase, List.flatMap_map, List.map_flatMap, Sheet.defects_rebase,
    Sheet.advice_rebase, List.length_map, List.map_map, Report.mk.injEq, true_and, and_true]
  congr 2
  funext sheet
  simp [Sheet.rebase]

end Sheets

namespace Inspector

variable {inspector other : Inspector} {source otherSource : Path} {link : Link}

theorem verdict_rebase {root otherRoot : Path}
    (rebases : (inspector.check .empty source link).RebasesTo (other.check .empty otherSource link)
      root otherRoot) :
    other.verdict otherSource link = (inspector.verdict source link).rebase root otherRoot := by
  rw [Inspection.RebasesTo] at rebases
  rw [Inspector.verdict, Inspector.verdict]
  cases checked : (inspector.check .empty source link).result with
  | error fault =>
    cases otherChecked : (other.check .empty otherSource link).result with
    | error otherFault => rfl
    | ok otherVerdict => simp [checked, otherChecked, Except.toOption] at rebases
  | ok verdict =>
    cases otherChecked : (other.check .empty otherSource link).result with
    | error otherFault => simp [checked, otherChecked, Except.toOption] at rebases
    | ok otherVerdict => simpa [checked, otherChecked, Except.toOption] using rebases

/-- A check gives a verdict below one root exactly if it does below the other. -/
theorem exists_verdict_of_rebasesTo {inspection otherInspection : Inspection Verdict}
    {root otherRoot : Path} (rebases : inspection.RebasesTo otherInspection root otherRoot) :
    (∃ verdict, inspection.result = .ok verdict) ↔
      ∃ verdict, otherInspection.result = .ok verdict := by
  rw [Inspection.RebasesTo] at rebases
  cases checked : inspection.result <;> cases otherChecked : otherInspection.result <;>
    simp [checked, otherChecked, Except.toOption] at rebases ⊢

section Documents

variable {base otherBase outer : List Name} {last : Name} {tree : Listing}
  (relocates : Relocates inspector other base otherBase tree)
  (isDocument : Search.isDocument inspector.disk inspector.settings
    (.ofNames (base ++ (outer ++ [last]))) = true)
  (fits : Disk.FitsAlike inspector.root other.root (.ofNames (base ++ (outer ++ [last]))))

include relocates fits

theorem Relocates.corresponds_document : Corresponds inspector other
    (.ofNames (base ++ (outer ++ [last]))) (.ofNames (otherBase ++ (outer ++ [last]))) := by
  have areSteps := Component.isStep_names (outer ++ [last])
  rw [Path.ofNames_append] at fits ⊢
  rw [Path.ofNames_append]
  exact relocates.corresponds areSteps (Move.staysInside_map_names _) fits

variable (relocatable : ∀ text,
  Document.read inspector.disk (.ofNames (base ++ (outer ++ [last]))) = .ok text →
    ∀ link ∈ Link.scan text, ∀ file fragment, Url.target link.url = .file file fragment →
      file ≠ [] →
        inspector.Relocatable other.root (.ofNames (base ++ (outer ++ [last]))) file)

include isDocument relocatable

theorem Relocates.check_of_read {text : Text}
    (read : Document.read inspector.disk (.ofNames (base ++ (outer ++ [last]))) = .ok text)
    (mem : link ∈ Link.scan text) :
    (inspector.check .empty (.ofNames (base ++ (outer ++ [last]))) link).RebasesTo
      (other.check .empty (.ofNames (otherBase ++ (outer ++ [last]))) link)
      inspector.root other.root := by
  have noSlash := Settings.slash_not_mem_extension (Bool.and_eq_true_iff.1 isDocument).1
  have same := (relocates.corresponds_document fits).same
  exact relocates.check_rebasesTo noSlash same (relocatable text read link mem)

/-- Nothing fails in a document below one root exactly if nothing does below the other. -/
theorem Relocates.isInspectable_iff :
    inspector.IsInspectable (.ofNames (base ++ (outer ++ [last]))) ↔
      other.IsInspectable (.ofNames (otherBase ++ (outer ++ [last]))) := by
  have same := (relocates.corresponds_document fits).same
  constructor
  · rintro ⟨text, read, checks⟩
    refine ⟨text, (read_of_sameEntry same).1 read, fun link mem => ?_⟩
    have rebases := relocates.check_of_read isDocument fits relocatable read mem
    exact (exists_verdict_of_rebasesTo rebases).1 (checks link mem)
  · rintro ⟨text, otherRead, checks⟩
    have read := (read_of_sameEntry same).2 otherRead
    refine ⟨text, read, fun link mem => ?_⟩
    have rebases := relocates.check_of_read isDocument fits relocatable read mem
    exact (exists_verdict_of_rebasesTo rebases).2 (checks link mem)

/-- A document below one root has the sheet that it has below the other, up to the root. -/
theorem Relocates.sheet_rebase
    (inspectable : inspector.IsInspectable (.ofNames (base ++ (outer ++ [last])))) :
    other.sheet (.ofNames (otherBase ++ (outer ++ [last]))) =
      (inspector.sheet (.ofNames (base ++ (outer ++ [last])))).rebase inspector.root
        other.root := by
  have corresponds := relocates.corresponds_document fits
  rcases inspectable with ⟨text, read, -⟩
  have otherRead := (read_of_sameEntry corresponds.same).1 read
  rw [Inspector.sheet, Inspector.sheet, Sheet.rebase, read, otherRead]
  simp only [corresponds.rebased, List.map_map, Sheet.mk.injEq, true_and]
  apply List.map_congr_left
  intro link mem
  rw [verdict_rebase (relocates.check_of_read isDocument fits relocatable read mem)]
  rfl

end Documents

section Self

variable {base outer : List Name} {last : Name} {tree : Listing} {file : Text}

/-- Below the same root again, only a link that leads out is not followed alike. -/
theorem relocatable_self (placed : inspector.disk.Places base tree)
    (root : inspector.root = .ofNames base)
    (noSlash : slash ∉ Utf8.encode inspector.settings.extension)
    (inside : inspector.staysInside (.ofNames (base ++ (outer ++ [last]))) file = true) :
    inspector.Relocatable (.ofNames base) (.ofNames (base ++ (outer ++ [last]))) file where
  inside := inside
  fits := by
    have fitsUnder : ∀ steps : List Component, (∀ c ∈ steps, c.IsStep) →
        Disk.FitsAlike inspector.root (.ofNames base) (.under base steps) := by
      intro steps areSteps
      rw [root, Disk.FitsAlike, Path.rebase_under areSteps]
    have movesInside := staysInside_ofNames root inside
    have target := @targetPath_of_places _ _ _ last _ file placed root movesInside
    have areSteps := @Move.isStep_of_mem_meant (file.head? == some '/') (startOf [] outer file)
      (Path.ofText (file.dropWhile (· == '/'))).moves
    intro p lookedUp
    cases lookedUp with
    | target =>
      rw [target]
      exact fitsUnder _ areSteps
    | extended absent notDocument =>
      rw [target] at absent ⊢
      revert areSteps absent
      generalize Move.meant _ _ _ = steps
      intro areSteps absent
      rcases steps.eq_nil_or_concat with rfl | ⟨front, step, rfl⟩
      · rw [Path.under_nil, Disk.contains_of_entry placed.entry_root] at absent
        cases absent
      · rw [List.concat_eq_append] at *
        rcases Path.exists_name_dotted (areSteps step (by simp)) noSlash with ⟨name, written⟩
        rw [Settings.dottedExtension, Path.append_under written]
        exact fitsUnder _ (Component.isStep_concat_name areSteps name)

end Self

end Inspector

section Validate

variable {network : Probe} {disk other : Disk} {settings : Settings}
  {given otherGiven root otherRoot : Path} {tree : Listing}

theorem toOption_validate_eq_none (canonical : canonicalRoot disk given = .ok root)
    (fails : ¬ (inspectorFor network disk settings root).InspectsAll) :
    (validate network disk settings given).toOption = none := by
  cases valid : validate network disk settings given with
  | error failure => rfl
  | ok report => exact absurd (inspectsAll_of_validate canonical valid) fails

section Documents

variable {base otherBase names : List Name}
  (relocates : Inspector.Relocates (inspectorFor network disk settings (.ofNames base))
    (inspectorFor network other settings (.ofNames otherBase)) base otherBase tree)
  (documentsFit : ∀ p ∈ Search.visited disk settings (.ofNames base),
    settings.isDocumentName p = true → Disk.FitsAlike (.ofNames base) (.ofNames otherBase) p)

include relocates documentsFit

/-- Below both roots, the same names lead to documents. -/
theorem documentNames_relocated :
    Search.documentNames disk settings base tree =
      Search.documentNames other settings otherBase tree := by
  have distinct : tree.Distinct := disk.distinct.at? relocates.placed.reached
  apply Search.documentNames_eq
  intro names mem
  apply relocates.isDocument_eq ((Search.mem_namesBelow_iff distinct).1 mem).1
  exact documentsFit _ (Search.mem_visited relocates.placed.entry_root mem)

/-- Names that lead to a document end with the name of a file that fits alike below both roots. -/
theorem exists_document_of_mem_documentNames
    (mem : names ∈ Search.documentNames disk settings base tree) :
    ∃ outer last, names = outer ++ [last] ∧
      Search.isDocument disk settings (.ofNames (base ++ (outer ++ [last]))) = true ∧
      Disk.FitsAlike (.ofNames base) (.ofNames otherBase)
        (.ofNames (base ++ (outer ++ [last]))) ∧
      .ofNames (base ++ (outer ++ [last])) ∈
        Search.documents disk settings (.ofNames base) := by
  have distinct : tree.Distinct := disk.distinct.at? relocates.placed.reached
  have root := relocates.placed.entry_root
  rcases Search.mem_documentNames_iff.1 mem with ⟨below, isDocument⟩
  rcases names.eq_nil_or_concat with rfl | ⟨outer, last, rfl⟩
  · exact absurd rfl ((Search.mem_namesBelow_iff distinct).1 below).1
  · rw [List.concat_eq_append] at mem below isDocument ⊢
    have named := (Bool.and_eq_true_iff.1 isDocument).1
    have listed := @Search.documents_eq_map disk settings base tree root
    refine ⟨outer, last, rfl, isDocument, documentsFit _ (Search.mem_visited root below) named, ?_⟩
    rw [listed]
    exact List.mem_map_of_mem mem

variable (relocatable : ∀ document ∈ Search.documents disk settings (.ofNames base), ∀ text,
  Document.read disk document = .ok text → ∀ link ∈ Link.scan text, ∀ file fragment,
    Url.target link.url = .file file fragment → file ≠ [] →
      (inspectorFor network disk settings (.ofNames base)).Relocatable (.ofNames otherBase)
        document file)

include relocatable

theorem inspectsAll_relocated_iff :
    (inspectorFor network disk settings (.ofNames base)).InspectsAll ↔
      (inspectorFor network other settings (.ofNames otherBase)).InspectsAll := by
  have documents := @Search.documents_eq_map disk settings base tree relocates.placed.entry_root
  have otherDocuments :=
    @Search.documents_eq_map other settings otherBase tree relocates.otherPlaced.entry_root
  rw [← documentNames_relocated relocates documentsFit] at otherDocuments
  simp only [Inspector.InspectsAll, inspectorFor, documents, otherDocuments, List.forall_mem_map]
  refine forall₂_congr fun names mem => ?_
  rcases exists_document_of_mem_documentNames relocates documentsFit mem with
    ⟨outer, last, rfl, isDocument, fits, isMember⟩
  exact relocates.isInspectable_iff isDocument fits (relocatable _ isMember)

/-- Below the other root, the sheets are those below the first, up to the root. -/
theorem sheets_relocated
    (inspectsAll : (inspectorFor network disk settings (.ofNames base)).InspectsAll) :
    (Search.documents other settings (.ofNames otherBase)).map
        (inspectorFor network other settings (.ofNames otherBase)).sheet =
      ((Search.documents disk settings (.ofNames base)).map
        (inspectorFor network disk settings (.ofNames base)).sheet).map
          (·.rebase (.ofNames base) (.ofNames otherBase)) := by
  have documents := @Search.documents_eq_map disk settings base tree relocates.placed.entry_root
  have otherDocuments :=
    @Search.documents_eq_map other settings otherBase tree relocates.otherPlaced.entry_root
  rw [← documentNames_relocated relocates documentsFit] at otherDocuments
  simp only [documents, otherDocuments, List.map_map]
  apply List.map_congr_left
  intro names mem
  rcases exists_document_of_mem_documentNames relocates documentsFit mem with
    ⟨outer, last, rfl, isDocument, fits, isMember⟩
  exact relocates.sheet_rebase isDocument fits (relocatable _ isMember) (inspectsAll _ isMember)

end Documents

/-- Runs below two roots end alike, up to the root in the paths of the report. -/
theorem toOption_validate_relocated (canonical : canonicalRoot disk given = .ok root)
    (otherCanonical : canonicalRoot other otherGiven = .ok otherRoot)
    (placed : disk.entry root = .ok (.directory tree))
    (otherPlaced : other.entry otherRoot = .ok (.directory tree)) (linkFree : tree.LinkFree)
    (documentsFit : ∀ p ∈ Search.visited disk settings root,
      settings.isDocumentName p = true → Disk.FitsAlike root otherRoot p)
    (relocatable : ∀ document ∈ Search.documents disk settings root, ∀ text,
      Document.read disk document = .ok text → ∀ link ∈ Link.scan text, ∀ file fragment,
        Url.target link.url = .file file fragment → file ≠ [] →
          (inspectorFor network disk settings root).Relocatable otherRoot document file) :
    (validate network other settings otherGiven).toOption =
      (validate network disk settings given).toOption.map (·.rebase root otherRoot) := by
  rcases exists_names_of_canonicalRoot canonical with ⟨base, _, rfl, -⟩
  rcases exists_names_of_canonicalRoot otherCanonical with ⟨otherBase, _, rfl, -⟩
  have relocates : Inspector.Relocates (inspectorFor network disk settings (.ofNames base))
      (inspectorFor network other settings (.ofNames otherBase)) base otherBase tree := {
    placed := Disk.places_of_canonicalRoot canonical placed linkFree
    otherPlaced := Disk.places_of_canonicalRoot otherCanonical otherPlaced linkFree
    root := rfl
    otherRoot := rfl
    settings := rfl
    probe := rfl }
  have inspectsAllIff := inspectsAll_relocated_iff relocates documentsFit relocatable
  by_cases inspectsAll : (inspectorFor network disk settings (.ofNames base)).InspectsAll
  · rw [validate_of_canonicalRoot canonical inspectsAll,
      validate_of_canonicalRoot otherCanonical (inspectsAllIff.1 inspectsAll),
      sheets_relocated relocates documentsFit relocatable inspectsAll, Report.ofSheets_rebase]
    rfl
  · rw [toOption_validate_eq_none canonical inspectsAll,
      toOption_validate_eq_none otherCanonical fun holds => inspectsAll (inspectsAllIff.2 holds)]
    rfl

section Self

variable {base : List Name}

/-- What the search visits fits alike below one root and the same. -/
theorem fitsAlike_self_of_mem_visited {p : Path}
    (root : disk.entry (.ofNames base) = .ok (.directory tree))
    (mem : p ∈ Search.visited disk settings (.ofNames base)) :
    Disk.FitsAlike (.ofNames base) (.ofNames base) p := by
  have isUnder : ∃ names : List Name, p = .under base (names.map .name) := by
    rw [Search.visited_ofNames root] at mem
    rcases List.mem_cons.1 mem with rfl | below
    · exact ⟨[], (Path.under_nil base).symm⟩
    · rcases List.mem_map.1 below with ⟨names, -, rfl⟩
      exact ⟨names, Path.ofNames_append base names⟩
  rcases isUnder with ⟨names, rfl⟩
  rw [Disk.FitsAlike, Path.rebase_under (Component.isStep_names names)]

/-- A link of a document that stays inside can be moved from a root to the same. -/
theorem relocatable_self_of_mem_documents {document : Path} {file : Text}
    (placed : disk.Places base tree)
    (mem : document ∈ Search.documents disk settings (.ofNames base))
    (inside : (inspectorFor network disk settings (.ofNames base)).staysInside document file = true) :
    (inspectorFor network disk settings (.ofNames base)).Relocatable (.ofNames base) document
      file := by
  rcases Search.exists_names_of_mem_documents placed.entry_root mem with
    ⟨names, nonempty, rfl, isDocument⟩
  have noSlash := Settings.slash_not_mem_extension (Bool.and_eq_true_iff.1 isDocument).1
  rcases names.eq_nil_or_concat with rfl | ⟨outer, last, rfl⟩
  · exact absurd rfl nonempty
  · rw [List.concat_eq_append] at inside ⊢
    exact Inspector.relocatable_self placed rfl noSlash inside

end Self

/-- Where all files of a tree can be read, a run over it ends with a report if no link leads out. -/
theorem exists_report_of_readable (canonical : canonicalRoot disk given = .ok root)
    (placed : disk.entry root = .ok (.directory tree)) (linkFree : tree.LinkFree)
    (readable : tree.Readable)
    (inside : ∀ document ∈ Search.documents disk settings root, ∀ text,
      Document.read disk document = .ok text → ∀ link ∈ Link.scan text, ∀ file fragment,
        Url.target link.url = .file file fragment → file ≠ [] →
          (inspectorFor network disk settings root).staysInside document file = true) :
    ∃ report, validate network disk settings given = .ok report := by
  rcases exists_names_of_canonicalRoot canonical with ⟨base, _, rfl, -⟩
  have places := Disk.places_of_canonicalRoot canonical placed linkFree
  have distinct : tree.Distinct := disk.distinct.at? places.reached
  -- The same root on a disk with nothing but the tree, where all files can be read.
  have alone := Disk.places_nesting distinct linkFree places.noZero places.short
  have alike : (validate network (.nesting tree distinct base) settings (.ofNames base)).toOption =
      (validate network disk settings given).toOption.map
        (·.rebase (.ofNames base) (.ofNames base)) := by
    apply toOption_validate_relocated canonical alone.canonicalRoot_eq placed alone.entry_root
      linkFree
    · intro p mem _
      exact fitsAlike_self_of_mem_visited placed mem
    · intro document mem text read link linkMem file fragment url nonempty
      exact relocatable_self_of_mem_documents places mem
        (inside document mem text read link linkMem file fragment url nonempty)
  have inspectsAll := @inspectsAll_of_readable network _ settings _ _
    (Disk.readable_nesting distinct readable) alone.canonicalRoot_eq
  rw [validate_of_canonicalRoot alone.canonicalRoot_eq inspectsAll] at alike
  cases valid : validate network disk settings given with
  | ok report => exact ⟨report, rfl⟩
  | error failure =>
    rw [valid] at alike
    cases alike

/-- A tree without links gets the same report below two roots, up to the root in its paths.  A run
over it fails below one of them exactly if it does below the other, and it does not if all files of
the tree can be read. -/
theorem validate_relocated (canonical : canonicalRoot disk given = .ok root)
    (otherCanonical : canonicalRoot other otherGiven = .ok otherRoot)
    (placed : disk.entry root = .ok (.directory tree))
    (otherPlaced : other.entry otherRoot = .ok (.directory tree)) (linkFree : tree.LinkFree)
    (documentsFit : ∀ p ∈ Search.visited disk settings root,
      settings.isDocumentName p = true → Disk.FitsAlike root otherRoot p)
    (relocatable : ∀ document ∈ Search.documents disk settings root, ∀ text,
      Document.read disk document = .ok text → ∀ link ∈ Link.scan text, ∀ file fragment,
        Url.target link.url = .file file fragment → file ≠ [] →
          (inspectorFor network disk settings root).Relocatable otherRoot document file) :
    (validate network other settings otherGiven).toOption =
        (validate network disk settings given).toOption.map (·.rebase root otherRoot) ∧
      (tree.Readable → ∃ report, validate network disk settings given = .ok report ∧
        validate network other settings otherGiven = .ok (report.rebase root otherRoot)) := by
  have alike := toOption_validate_relocated canonical otherCanonical placed otherPlaced linkFree
    documentsFit relocatable
  refine ⟨alike, fun readable => ?_⟩
  have ends : ∃ report, validate network disk settings given = .ok report := by
    apply exists_report_of_readable canonical placed linkFree readable
    intro document mem text read link linkMem file fragment url nonempty
    exact (relocatable document mem text read link linkMem file fragment url nonempty).inside
  rcases ends with ⟨report, valid⟩
  refine ⟨report, valid, ?_⟩
  rw [valid] at alike
  cases otherValid : validate network other settings otherGiven with
  | ok otherReport =>
    rw [otherValid] at alike
    rw [Option.some.inj alike]
  | error failure =>
    rw [otherValid] at alike
    cases alike

end Validate

namespace Detour

def linking : Name := ⟨Utf8.encode "a.md".toList, Eq.refl true⟩

def linked : Name := ⟨Utf8.encode "b.md".toList, Eq.refl true⟩

def between : Name := ⟨Utf8.encode "d".toList, Eq.refl true⟩

/-- The URL of a document, from the root, by way of a directory that is left again so many times. -/
def url (count : Nat) : Text :=
  '/' :: ((List.replicate count "d/../".toList).flatten ++ "b.md".toList)

/-- A document with such a link, the document that it leads to, and the directory on its way. -/
def tree (count : Nat) : Listing :=
  .file linking (.bytes (Utf8.encode (Link.written "x".toList (url count))))
    (.file linked (.bytes []) (.directory between .empty .empty))

theorem distinct_tree (count : Nat) : (tree count).Distinct := by
  simp [tree, Listing.Distinct, Listing.names]
  decide

theorem readable_tree (count : Nat) : (tree count).Readable :=
  ⟨trivial, trivial⟩

theorem namesBelow_tree (count : Nat) :
    Search.namesBelow .default (tree count) = [[linking], [linked], [between]] := by
  rfl

/-- Names of directories that are nearly as long, one in the other, as a path may be. -/
def deepNames : List Name :=
  List.replicate 16 ⟨List.replicate 254 0x6C, by decide⟩

def shallow (count : Nat) : Disk :=
  .nesting (tree count) (distinct_tree count) []

def deep (count : Nat) : Disk :=
  .nesting (tree count) (distinct_tree count) deepNames

theorem shallow_places (count : Nat) : (shallow count).Places [] (tree count) :=
  Disk.places_nesting _ (by trivial) (by simp) (by decide)

theorem deep_places (count : Nat) : (deep count).Places deepNames (tree count) :=
  Disk.places_nesting _ (by trivial) (by decide +kernel) (by decide +kernel)

theorem relocates (count : Nat) (network : Probe) :
    Inspector.Relocates (inspectorFor network (shallow count) .default (.ofNames []))
      (inspectorFor network (deep count) .default (.ofNames deepNames)) [] deepNames
      (tree count) where
  placed := shallow_places count
  otherPlaced := deep_places count
  root := rfl
  otherRoot := rfl
  settings := rfl
  probe := rfl

theorem inspectsAll_shallow (count : Nat) (network : Probe) :
    (inspectorFor network (shallow count) .default (.ofNames [])).InspectsAll :=
  inspectsAll_of_readable (Disk.readable_nesting (distinct_tree count) (readable_tree count))
    (shallow_places count).canonicalRoot_eq

theorem inspectsAll_deep (count : Nat) (network : Probe) :
    (inspectorFor network (deep count) .default (.ofNames deepNames)).InspectsAll :=
  inspectsAll_of_readable (Disk.readable_nesting (distinct_tree count) (readable_tree count))
    (deep_places count).canonicalRoot_eq

/-- A path that is short enough below the deep root is so below the other one. -/
theorem fitsAlike {steps : List Component} (areSteps : ∀ c ∈ steps, c.IsStep)
    (short : (Path.under [] steps).bytes.length ≤ Disk.maxPathLength)
    (deepShort : (Path.under deepNames steps).bytes.length ≤ Disk.maxPathLength) :
    Disk.FitsAlike (.ofNames []) (.ofNames deepNames) (.under [] steps) := by
  rw [Disk.FitsAlike, Path.rebase_under areSteps]
  exact iff_of_true short deepShort

theorem documentsFit (count : Nat) :
    ∀ p ∈ Search.visited (shallow count) .default (.ofNames []),
      Disk.FitsAlike (.ofNames []) (.ofNames deepNames) p := by
  rw [Search.visited_ofNames (shallow_places count).entry_root, namesBelow_tree]
  intro p mem
  simp only [List.map_cons, List.map_nil, List.mem_cons, List.not_mem_nil, or_false] at mem
  rcases mem with rfl | rfl | rfl | rfl
  · exact fitsAlike (by simp) (by decide) (by decide +kernel)
  · exact fitsAlike (Component.isStep_names [linking]) (by decide) (by decide +kernel)
  · exact fitsAlike (Component.isStep_names [linked]) (by decide) (by decide +kernel)
  · exact fitsAlike (Component.isStep_names [between]) (by decide) (by decide +kernel)

theorem mem_url {count : Nat} {c : Char} (mem : c ∈ url count) : c ∈ "/d.bm".toList := by
  have parts : '/' ∈ "/d.bm".toList ∧ "d/../".toList ⊆ "/d.bm".toList ∧
      "b.md".toList ⊆ "/d.bm".toList := by
    decide
  rcases parts with ⟨slash, detour, ending⟩
  rcases List.mem_cons.1 mem with rfl | more
  · exact slash
  · rcases List.mem_append.1 more with inDetours | inEnd
    · rcases List.mem_flatten.1 inDetours with ⟨part, partMem, inPart⟩
      rw [List.eq_of_mem_replicate partMem] at inPart
      exact detour inPart
    · exact ending inEnd

theorem getLast?_url (count : Nat) : (url count).getLast? = some 'd' := by
  rw [url, ← List.cons_append, List.getLast?_append]
  rfl

theorem scan_url (count : Nat) :
    Link.scan (Link.written "x".toList (url count)) = [⟨1, "x".toList, url count⟩] := by
  have noParen : ')' ∉ url count := fun mem => absurd (mem_url mem) (by decide)
  have oneLine : '\n' ∉ url count := fun mem => absurd (mem_url mem) (by decide)
  have whole : Title.stripAll (url count) = url count := by
    apply Title.stripAll_eq_self
    · simp [getLast?_url]
    · simp only [url, List.head?_cons, Option.mem_some_iff, forall_eq']
      decide
    · simp only [getLast?_url, Option.mem_some_iff, forall_eq']
      decide
  have nonempty : url count ≠ [] := List.cons_ne_nil _ _
  rw [Link.scan_written (by decide) (by decide) (by decide) nonempty noParen oneLine, whole]

theorem target_url (count : Nat) : Url.target (url count) = .file (url count) none := by
  have noPercent : (0x25 : UInt8) ∉ Utf8.encode (url count) := by
    have absent : (0x25 : UInt8) ∉ Utf8.encode "/d.bm".toList := by decide
    intro mem
    rcases List.mem_flatMap.1 mem with ⟨c, inUrl, inChar⟩
    exact absent (List.mem_flatMap.2 ⟨c, mem_url inUrl, inChar⟩)
  have noColon : ':' ∉ url count := fun mem => absurd (mem_url mem) (by decide)
  have plain : Url.IsPlain (url count) := {
    noFragment := fun mem => absurd (mem_url mem) (by decide)
    decode := Percent.decode_eq_self noPercent
    notExternal := by
      rw [Url.scheme?_eq_none noColon]
      rfl }
  have target := @Url.target_of_isPlain _ none plain (List.cons_ne_nil _ _) (by simp)
  rw [Option.getD_none, List.append_nil] at target
  exact target

theorem read_shallow (count : Nat) :
    Document.read (shallow count) (.ofNames [linking]) =
      .ok (Link.written "x".toList (url count)) := by
  have noReturn : '\r' ∉ Link.written "x".toList (url count) := by
    have absent : '\r' ∉ url count := fun mem => absurd (mem_url mem) (by decide)
    simp [Link.written, absent]
  apply Document.read_eq_ok_iff.2
  exact ⟨_, rfl, (Document.ofBytes_encode noReturn).symm⟩

theorem documents_shallow (count : Nat) :
    Search.documents (shallow count) .default (.ofNames []) =
      [.ofNames [linking], .ofNames [linked]] := by
  have found : (Search.visited (shallow count) .default (.ofNames [])).filter
      (Search.isDocument (shallow count) .default) =
        [.ofNames [linking], .ofNames [linked]] := by
    rfl
  rw [Search.documents, found]
  exact List.mergeSort_of_pairwise (by decide)

theorem read_linked (count : Nat) :
    Document.read (shallow count) (.ofNames [linked]) = .ok [] := by
  rfl

theorem link_of_shallow {count : Nat} {document : Path} {text : Text} {link : Link}
    (mem : document ∈ Search.documents (shallow count) .default (.ofNames []))
    (read : Document.read (shallow count) document = .ok text)
    (linkMem : link ∈ Link.scan text) :
    document = .ofNames [linking] ∧ link.url = url count := by
  rw [documents_shallow] at mem
  rcases List.mem_cons.1 mem with rfl | last
  · rw [read_shallow] at read
    cases read
    rw [scan_url] at linkMem
    rw [List.mem_singleton.1 linkMem]
    exact ⟨rfl, rfl⟩
  · rw [List.mem_singleton.1 last, read_linked] at read
    cases read
    rw [Link.scan_nil] at linkMem
    cases linkMem

theorem defects_of_read {count : Nat} {inspector : Inspector} {document : Path}
    (read : Document.read inspector.disk document = .ok (Link.written "x".toList (url count))) :
    (inspector.sheet document).defects =
      (inspector.verdict document ⟨1, "x".toList, url count⟩).defect.toList := by
  rw [Inspector.sheet, read]
  simp only [Sheet.defects, scan_url, List.map_singleton, List.flatMap_singleton]

end Detour

/-- With one detour, all paths are short enough below both roots. -/
theorem validate_relocated_sample :
    canonicalRoot (Detour.shallow 1) (.ofNames []) = .ok (.ofNames []) ∧
      canonicalRoot (Detour.deep 1) (.ofNames Detour.deepNames) = .ok (.ofNames Detour.deepNames) ∧
      (Detour.tree 1).Readable ∧
      ∃ report,
        validate (fun _ => .reachable) (Detour.shallow 1) .default (.ofNames []) = .ok report ∧
        validate (fun _ => .reachable) (Detour.deep 1) .default (.ofNames Detour.deepNames) =
          .ok (report.rebase (.ofNames []) (.ofNames Detour.deepNames)) := by
  have placed := Detour.shallow_places 1
  have deepPlaced := Detour.deep_places 1
  have readable := Detour.readable_tree 1
  refine ⟨placed.canonicalRoot_eq, deepPlaced.canonicalRoot_eq, readable, ?_⟩
  refine (validate_relocated placed.canonicalRoot_eq deepPlaced.canonicalRoot_eq placed.entry_root
    deepPlaced.entry_root placed.linkFree ?_ ?_).2 readable
  · intro p mem _
    exact Detour.documentsFit 1 p mem
  · intro document documentMem text read link linkMem file fragment url _
    rcases Detour.link_of_shallow documentMem read linkMem with ⟨rfl, written⟩
    rw [written, Detour.target_url] at url
    cases url
    refine ⟨by rfl, ?_⟩
    intro p lookedUp
    cases lookedUp with
    | target =>
      exact Detour.fitsAlike (@Move.isStep_of_mem_meant true []
        [.into Detour.between, .up, .into Detour.linked]) (by decide) (by decide +kernel)
    | extended absent notDocument => exact absurd absent (by decide)

namespace Detour

theorem defects_shallow :
    (Report.ofSheets ((Search.documents (shallow 3) .default (.ofNames [])).map
      (inspectorFor (fun _ => .reachable) (shallow 3) .default (.ofNames [])).sheet)).defects =
        [] := by
  have linkedDefects :
      ((inspectorFor (fun _ => .reachable) (shallow 3) .default (.ofNames [])).sheet
        (.ofNames [linked])).defects = [] := by
    rw [Inspector.sheet]
    simp only [inspectorFor, read_linked, Link.scan_nil]
    rfl
  have linkingDefects := @defects_of_read 3
    (inspectorFor (fun _ => .reachable) (shallow 3) .default (.ofNames [])) (.ofNames [linking])
    (read_shallow 3)
  rw [documents_shallow, Report.ofSheets]
  simp only [List.map_cons, List.map_nil, List.flatMap_cons, List.flatMap_nil, linkedDefects,
    linkingDefects]
  decide +kernel

theorem not_findsNoDefect_deep (network : Probe) :
    ¬ ((inspectorFor network (deep 3) .default (.ofNames deepNames)).check .empty
      (.ofNames (deepNames ++ [linking])) ⟨1, "x".toList, url 3⟩).FindsNoDefect := by
  have target : (inspectorFor network (deep 3) .default (.ofNames deepNames)).targetPath
      (.ofNames (deepNames ++ ([] ++ [linking]))) (url 3) =
        .under deepNames [.name between, .parent, .name between, .parent, .name between, .parent,
          .name linked] := by
    rw [Inspector.targetPath_of_places (deep_places 3) rfl (by rfl)]
    exact congrArg (Path.under deepNames) (by rfl)
  have tooLong : Disk.maxPathLength < (Path.under deepNames [.name between, .parent, .name between,
      .parent, .name between, .parent, .name linked]).bytes.length := by
    decide +kernel
  rw [List.nil_append] at target
  rw [Inspector.check]
  simp only [target_url]
  rw [Inspector.checkFile_findsNoDefect_iff (by decide)]
  rintro ⟨found, leads, -⟩
  rw [Inspector.lead?_eq_some_iff, target] at leads
  rcases leads with isPlain | isExtended
  · have short := Disk.length_le_of_contains (Inspector.reach_eq_plain_iff.1 isPlain).2
    omega
  · have short := Disk.length_le_of_contains (Inspector.reach_eq_extended_iff.1 isExtended).2.2.2
    rw [Path.append, List.length_append] at short
    omega

theorem exists_defect_deep (network : Probe) :
    ∃ document ∈ Search.documents (deep 3) .default (.ofNames deepNames),
      ((inspectorFor network (deep 3) .default (.ofNames deepNames)).sheet document).defects ≠
        [] := by
  have below : [linking] ∈ Search.namesBelow .default (tree 3) := by
    rw [namesBelow_tree]
    exact List.mem_cons_self
  have fits := documentsFit 3 _ (Search.mem_visited (shallow_places 3).entry_root below)
  have corresponds := (relocates 3 network).corresponds (Component.isStep_names [linking])
    (Move.staysInside_map_names [linking]) fits
  have isDocument : Search.isDocument (deep 3) .default (.ofNames (deepNames ++ [linking])) =
      true := by
    have shallowDocument : Search.isDocument (shallow 3) .default (.ofNames [linking]) = true := by
      rfl
    have same := @Inspector.Relocates.isDocument_eq _ _ _ _ _ (relocates 3 network) [linking]
      (by simp) fun _ => fits
    exact same.symm.trans shallowDocument
  have read : Document.read (deep 3) (.ofNames (deepNames ++ [linking])) =
      .ok (Link.written "x".toList (url 3)) := by
    rw [Path.ofNames_append]
    exact (Inspector.read_of_sameEntry corresponds.same).1 (read_shallow 3)
  refine ⟨.ofNames (deepNames ++ [linking]), ?_, ?_⟩
  · rw [Search.mem_documents_iff (deep_places 3).entry_root]
    exact ⟨isDocument, [linking], below, rfl⟩
  · rw [@defects_of_read 3 (inspectorFor network (deep 3) .default (.ofNames deepNames)) _
      read]
    have isFile : (deep 3).isFile (.ofNames (deepNames ++ [linking])) = true := by
      rw [Search.isDocument] at isDocument
      exact (Bool.and_eq_true_iff.1 isDocument).2
    rcases @Inspector.exists_check_eq_ok
      (inspectorFor network (deep 3) .default (.ofNames deepNames)) _
      (Disk.readable_nesting (distinct_tree 3) (readable_tree 3)) isFile ⟨1, "x".toList, url 3⟩ with
      ⟨verdict, checked⟩
    rw [Inspector.verdict_eq_of_check checked]
    intro sound
    apply not_findsNoDefect_deep network
    exact ⟨verdict, checked, by simpa [Verdict.isSound] using sound⟩

end Detour

/-- With more detours, the path of the same document is too long below one of the roots. -/
theorem not_forall_relocated :
    ¬ ∀ (network : Probe) (disk other : Disk) (settings : Settings)
      (given otherGiven root otherRoot : Path) (tree : Listing),
      canonicalRoot disk given = .ok root → canonicalRoot other otherGiven = .ok otherRoot →
        disk.entry root = .ok (.directory tree) → other.entry otherRoot = .ok (.directory tree) →
        tree.LinkFree → tree.Readable →
        (∀ document ∈ Search.documents disk settings root, ∀ text,
          Document.read disk document = .ok text → ∀ link ∈ Link.scan text, ∀ file fragment,
            Url.target link.url = .file file fragment →
              (inspectorFor network disk settings root).staysInside document file = true) →
        ∃ report, validate network disk settings given = .ok report ∧
          validate network other settings otherGiven = .ok (report.rebase root otherRoot) := by
  intro relocated
  have placed := Detour.shallow_places 3
  have deepPlaced := Detour.deep_places 3
  have inside : ∀ document ∈ Search.documents (Detour.shallow 3) .default (.ofNames []), ∀ text,
      Document.read (Detour.shallow 3) document = .ok text → ∀ link ∈ Link.scan text,
        ∀ file fragment, Url.target link.url = .file file fragment →
          (inspectorFor (fun _ => .reachable) (Detour.shallow 3) .default (.ofNames [])).staysInside
            document file = true := by
    intro document documentMem text read link linkMem file fragment url
    rcases Detour.link_of_shallow documentMem read linkMem with ⟨rfl, written⟩
    rw [written, Detour.target_url] at url
    cases url
    rfl
  rcases relocated _ _ _ _ _ _ _ _ _ placed.canonicalRoot_eq deepPlaced.canonicalRoot_eq
    placed.entry_root deepPlaced.entry_root placed.linkFree (Detour.readable_tree 3) inside with
    ⟨report, valid, deepValid⟩
  have inspectsAll := Detour.inspectsAll_shallow 3 fun _ => .reachable
  have deepInspectsAll := Detour.inspectsAll_deep 3 fun _ => .reachable
  rw [validate_of_canonicalRoot placed.canonicalRoot_eq inspectsAll] at valid
  rw [validate_of_canonicalRoot deepPlaced.canonicalRoot_eq deepInspectsAll] at deepValid
  have deepDefects := congrArg Report.defects (Except.ok.inj deepValid)
  rw [← Except.ok.inj valid, Report.rebase, Detour.defects_shallow, List.map_nil, Report.ofSheets,
    List.flatMap_map, List.flatMap_eq_nil_iff] at deepDefects
  rcases Detour.exists_defect_deep fun _ => .reachable with ⟨document, mem, defective⟩
  exact defective (deepDefects document mem)

end MarkdownLinks
