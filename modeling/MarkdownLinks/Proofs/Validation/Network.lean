import MarkdownLinks.Proofs.Inspection.Network
import MarkdownLinks.Proofs.Validation.Complete

/-!
# What a run asks of the network

A run gives the probe the URLs of the web among the links of its documents, in order, each as often
as it occurs, and nothing else; a run that fails stops on the way.  No other link depends on the
probe, and links to the web depend on nothing else.
-/

namespace MarkdownLinks

namespace Inspection

variable {α β : Type} {cache : AnchorCache} {elements : List α}
  {inspect : AnchorCache → α → Inspection β}

/-- A run that ends well asks what its inspections ask, one after the other. -/
theorem probed_each {asked : α → List Text} {results : List β}
    (step : ∀ cache a b, (inspect cache a).result = .ok b → (inspect cache a).probed = asked a)
    (done : (each inspect cache elements).result = .ok results) :
    (each inspect cache elements).probed = elements.flatMap asked := by
  induction elements generalizing cache results with
  | nil => rfl
  | cons a rest ih =>
    rcases exists_of_each_cons done with ⟨b, more, given, others, rfl⟩
    simp only [each, given, List.flatMap_cons, ih others]
    rw [step cache a b given]

/-- A run asks no more than its inspections ask, one after the other, whether it ends well or not. -/
theorem probed_each_prefix {asked : α → List Text}
    (step : ∀ cache a b, (inspect cache a).result = .ok b → (inspect cache a).probed = asked a)
    (atMost : ∀ cache a, (inspect cache a).probed <+: asked a) :
    (each inspect cache elements).probed <+: elements.flatMap asked := by
  induction elements generalizing cache with
  | nil => exact List.prefix_rfl
  | cons a rest ih =>
    simp only [each, List.flatMap_cons]
    split
    · exact (atMost cache a).trans (List.prefix_append _ _)
    · next b given =>
      rw [step cache a b given, List.prefix_append_right_inj]
      exact ih

end Inspection

/-- The links of a document, as they are found when it is read. -/
def Document.links (disk : Disk) (document : Path) : List Link :=
  match Document.read disk document with
  | .ok text => Link.scan text
  | .error _ => []

namespace Inspector

variable {inspector : Inspector} {cache : AnchorCache}

theorem probed_inspectDocument {document : Path} {findings : Findings}
    (done : (inspector.inspectDocument cache document).result = .ok findings) :
    (inspector.inspectDocument cache document).probed =
      (Document.links inspector.disk document).flatMap inspector.askedFor := by
  unfold inspectDocument at done ⊢
  unfold Document.links
  cases read : Document.read inspector.disk document with
  | error fault =>
    simp only [read] at done
    cases done
  | ok text =>
    simp only [read] at done ⊢
    rcases Inspection.map_eq_ok_iff.1 done with ⟨verdicts, each, -⟩
    apply Inspection.probed_each _ each
    intro cache link _ _
    exact probed_check inspector cache document link

theorem probed_inspectDocument_prefix (document : Path) :
    (inspector.inspectDocument cache document).probed <+:
      (Document.links inspector.disk document).flatMap inspector.askedFor := by
  unfold inspectDocument Document.links
  cases Document.read inspector.disk document with
  | error fault => exact List.prefix_rfl
  | ok text =>
    apply Inspection.probed_each_prefix
    · intro cache link _ _
      exact probed_check inspector cache document link
    · intro cache link
      rw [probed_check]

theorem probed_inspectAll_prefix (documents : List Path) :
    (inspector.inspectAll cache documents).probed <+:
      if inspector.probe.isSome then webUrls (documents.flatMap (Document.links inspector.disk))
      else [] := by
  rw [← flatMap_askedFor, List.flatMap_assoc]
  apply Inspection.probed_each_prefix
  · intro cache document findings given
    exact probed_inspectDocument given
  · intro cache document
    exact probed_inspectDocument_prefix document

theorem probed_inspectAll {documents : List Path} {report : Report}
    (done : (inspector.inspectAll cache documents).result = .ok report) :
    (inspector.inspectAll cache documents).probed =
      if inspector.probe.isSome then webUrls (documents.flatMap (Document.links inspector.disk))
      else [] := by
  rcases Inspection.map_eq_ok_iff.1 done with ⟨findings, each, -⟩
  rw [← flatMap_askedFor, List.flatMap_assoc]
  apply Inspection.probed_each _ each
  intro cache document findings given
  exact probed_inspectDocument given

end Inspector

section Network

variable (network : Probe) (disk : Disk) (settings : Settings) (given : Path)

/-- The probe is only for links to the web.  They are known by how their URL starts, each of them is
asked for once whenever it is checked, and what is found is what the answer says, whatever the disk
holds.  No other check has to do with the probe.  So any calls, and any run, ask for the URLs of the
web among the links that are checked, in this order. -/
theorem network_only_for_web :
    (∀ url,
      (Url.isWeb url = true ↔
        Url.scheme? url = some "http".toList ∨ Url.scheme? url = some "https".toList) ∧
      (Url.isWeb url = true ↔ ∃ written rest, url = written ++ ':' :: rest ∧
        written.map Url.lowerAscii ∈ ["http".toList, "https".toList])) ∧
    (∀ (inspector : Inspector) (cache : AnchorCache) (source : Path) (link : Link),
      (Url.isWeb link.url = false → inspector.IgnoresProbe cache source link) ∧
      (inspector.probe = none → (inspector.check cache source link).probed = []) ∧
      ∀ probe, inspector.probe = some probe → Url.isWeb link.url = true →
        inspector.AsksOnce probe cache source link) ∧
    (∀ (inspector : Inspector) (cache : AnchorCache) (calls : List (Probe × Path × Link)),
      inspector.asked cache calls = webUrls (calls.map fun call => call.2.2)) ∧
    ∀ root, canonicalRoot disk given = .ok root →
      let run := (inspectorFor network disk settings root).inspectAll .empty
        (Search.documents disk settings root)
      let urls := if settings.checkExternal then
        webUrls ((Search.documents disk settings root).flatMap (Document.links disk)) else []
      (∀ report, validate network disk settings given = .ok report →
        run.result = .ok report ∧ run.probed = urls) ∧
      run.probed <+: urls ∧
      (disk.Readable → ∃ report, validate network disk settings given = .ok report) := by
  refine ⟨fun url => ⟨Url.isWeb_iff_scheme?, Url.isWeb_iff⟩, ?_, Inspector.asked_eq, ?_⟩
  · intro inspector cache source link
    refine ⟨Inspector.ignoresProbe_of_not_isWeb, ?_, fun probe => Inspector.asksOnce_of_isWeb⟩
    intro noProbe
    rw [Inspector.probed_check, Inspector.askedFor, noProbe]
    rfl
  · intro root canonical run urls
    have configured : (inspectorFor network disk settings root).probe.isSome =
        settings.checkExternal := by
      unfold inspectorFor
      cases settings.checkExternal <;> rfl
    refine ⟨?_, ?_, ?_⟩
    · intro report valid
      have done := inspectAll_of_validate canonical valid
      have asked := Inspector.probed_inspectAll done
      rw [configured] at asked
      exact ⟨done, asked⟩
    · have asked := @Inspector.probed_inspectAll_prefix
        (inspectorFor network disk settings root) .empty (Search.documents disk settings root)
      rw [configured] at asked
      exact asked
    · intro readable
      exact ⟨_, validate_of_canonicalRoot canonical (inspectsAll_of_readable readable canonical)⟩

end Network

/-- A network in which every page is missing, but for one host that does not answer. -/
def sampleNetwork : Probe := fun url =>
  if url = "Https://h:1/a".toList then .unreachable "no answer".toList else .status 404

/-- The inspector of the sample disk that asks the sample network. -/
def sampleInspector : Inspector :=
  inspectorFor sampleNetwork .sample { Settings.default with checkExternal := true }
    (.ofText "/r".toList)

theorem network_only_for_web_sample :
    Url.isWeb "Https://h:1/a".toList = true ∧
      sampleInspector.AsksOnce sampleNetwork .empty (.ofText "/r/index.md".toList)
        ⟨1, "x".toList, "Https://h:1/a".toList⟩ ∧
      Url.isWeb "./https:a".toList = false ∧
      sampleInspector.IgnoresProbe .empty (.ofText "/r/index.md".toList)
        ⟨1, "x".toList, "./https:a".toList⟩ ∧
      ((sampleInspector.withProbe none).check .empty (.ofText "/r/index.md".toList)
        ⟨1, "x".toList, "Https://h:1/a".toList⟩).probed = [] ∧
      canonicalRoot .sample (.ofText "/r/d/..".toList) = .ok (.ofText "/r".toList) ∧
      (sampleInspector.inspectAll .empty (Search.documents .sample
          { Settings.default with checkExternal := true } (.ofText "/r".toList))).probed =
        webUrls ((Search.documents .sample { Settings.default with checkExternal := true }
          (.ofText "/r".toList)).flatMap (Document.links .sample)) := by
  rcases network_only_for_web sampleNetwork .sample { Settings.default with checkExternal := true }
    (.ofText "/r/d/..".toList) with ⟨-, checks, -, runs⟩
  have web : Url.isWeb "Https://h:1/a".toList = true := by decide
  have notWeb : Url.isWeb "./https:a".toList = false := by decide
  refine ⟨web, ?_, notWeb, ?_, ?_, Disk.canonicalRoot_sample, ?_⟩
  · exact (checks _ _ _ _).2.2 sampleNetwork rfl web
  · exact (checks _ _ _ _).1 notWeb
  · exact (checks _ _ _ _).2.1 rfl
  · have readable : Disk.sample.Readable := by decide
    rcases (runs _ Disk.canonicalRoot_sample).2.2 readable with ⟨report, valid⟩
    exact ((runs _ Disk.canonicalRoot_sample).1 report valid).2

end MarkdownLinks
