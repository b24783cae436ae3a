import MarkdownLinks.Proofs.Inspection.Findings
import MarkdownLinks.Proofs.Inspection.Target

/-!
# How much advice a link gets

Nearly every link gets one piece of advice at most.  The extension of documents is tried only where
nothing is, and advice about a slash is given only where a directory is; but the directory may be
what was found with the extension, and then both are given.
-/

namespace MarkdownLinks

namespace Inspector

variable {inspector : Inspector} {source : Path} {link : Link} {cache : AnchorCache}
  {verdict : Verdict}

theorem directoryAdvice_of_isDirectory {target : Path}
    (isDirectory : inspector.disk.isDirectory target = true)
    (noSlash : link.url.getLast? ≠ some '/') :
    inspector.directoryAdvice source link target =
      [inspector.advice source link (.directoryWithoutSlash (link.url ++ ['/']))] := by
  simp [directoryAdvice, isDirectory, noSlash]

theorem directoryAdvice_eq_nil {target : Path}
    (notBoth : ¬ (link.url.getLast? ≠ some '/' ∧ inspector.disk.isDirectory target = true)) :
    inspector.directoryAdvice source link target = [] := by
  unfold directoryAdvice
  split
  · next both =>
    simp only [Bool.and_eq_true, bne_iff_ne] at both
    exact absurd ⟨both.2, both.1⟩ notBoth
  · rfl

theorem of_mem_directoryAdvice {target : Path} {advice : Advice}
    (mem : advice ∈ inspector.directoryAdvice source link target) :
    inspector.disk.isDirectory target = true ∧
      advice.reason = .directoryWithoutSlash (link.url ++ ['/']) := by
  unfold directoryAdvice at mem
  split at mem
  · next both =>
    obtain rfl := List.mem_singleton.1 mem
    exact ⟨(Bool.and_eq_true_iff.1 both).1, rfl⟩
  · cases mem

theorem length_directoryAdvice_le (target : Path) :
    (inspector.directoryAdvice source link target).length ≤ 1 := by
  unfold directoryAdvice
  split <;> simp

theorem checkAnchor_advice {document : Path} {fragment message : Text} {target : Option Path}
    {advice : List Advice}
    (checked : (inspector.checkAnchor source link cache document fragment message target advice
      advice).result = .ok verdict) : verdict.advice = advice := by
  unfold checkAnchor at checked
  split at checked
  · cases checked
  · simp only at checked
    split at checked <;> cases checked <;> rfl

/-- A fragment changes nothing about the advice, since only files have headings. -/
theorem checkFragment_advice {target : Path} {fragment : Option Text} {soFar : List Advice}
    (checked : (inspector.checkFragment source link cache target fragment soFar).result =
      .ok verdict) :
    verdict.advice = soFar ++ inspector.directoryAdvice source link target := by
  unfold checkFragment at checked
  split at checked
  · next fragment asked =>
    have hasAnchors : inspector.hasAnchors target = true := (Option.filter_eq_some_iff.1 asked).2
    simp only [directoryAdvice_eq_nil_of_hasAnchors hasAnchors, List.append_nil] at checked ⊢
    exact checkAnchor_advice checked
  · cases checked
    rfl

/-- The only advice about a URL that may be probed is that it could not be verified. -/
theorem advice_of_checkExternal {scheme : Text}
    (checked : (inspector.checkExternal source link cache scheme).result = .ok verdict) :
    verdict.advice = [] ∨
      ∃ cause, verdict.advice = [inspector.advice source link (.unverified cause)] := by
  unfold checkExternal at checked
  split at checked
  · split at checked <;> cases checked
    · rw [advice_probeVerdict]
      split
      · exact .inr ⟨_, rfl⟩
      · exact .inl rfl
    · exact .inl rfl
  · cases checked
    exact .inl rfl

theorem checkExternal_advice {scheme : Text}
    (checked : (inspector.checkExternal source link cache scheme).result = .ok verdict) :
    verdict.advice.length ≤ 1 := by
  rcases advice_of_checkExternal checked with nothing | ⟨cause, only⟩
  · simp [nothing]
  · simp [only]

/-- Advice on how to write a link is only given for a link to a file. -/
theorem exists_file_of_mem_advice {advice : Advice}
    (checked : (inspector.check cache source link).result = .ok verdict)
    (mem : advice ∈ verdict.advice) (verified : ∀ cause, advice.reason ≠ .unverified cause) :
    ∃ file fragment, Url.target link.url = .file file fragment ∧
      (inspector.checkFile source link cache file fragment).result = .ok verdict := by
  unfold check at checked
  split at checked
  · exfalso
    rcases advice_of_checkExternal checked with nothing | ⟨cause, only⟩
    · rw [nothing] at mem
      cases mem
    · rw [only] at mem
      obtain rfl := List.mem_singleton.1 mem
      exact verified cause rfl
  · exfalso
    rw [checkAnchor_advice checked] at mem
    cases mem
  · next file fragment url => exact ⟨file, fragment, url, checked⟩

/-- Whether a verdict advises to write the extension of documents, and a slash as well. -/
def AdvisesBoth (inspector : Inspector) (source : Path) (link : Link) (verdict : Verdict) : Prop :=
  ∃ suggestion, verdict.advice =
    [inspector.advice source link (.missingExtension suggestion),
      inspector.advice source link (.directoryWithoutSlash (link.url ++ ['/']))]

/-- Whether a link without a slash at its end names nothing as it is, and a directory with the
extension of documents after it. -/
def NamesExtendedDirectory (inspector : Inspector) (source : Path) (link : Link) : Prop :=
  ∃ file fragment, Url.target link.url = .file file fragment ∧ file ≠ [] ∧
    link.url.getLast? ≠ some '/' ∧
    inspector.disk.contains (inspector.targetPath source file) = false ∧
    inspector.settings.endsAsDocument (inspector.targetPath source file) = false ∧
    inspector.disk.isDirectory
      ((inspector.targetPath source file).append inspector.settings.dottedExtension) = true

theorem namesExtendedDirectory_iff {file : Text} {fragment : Option Text}
    (url : Url.target link.url = .file file fragment) :
    inspector.NamesExtendedDirectory source link ↔
      file ≠ [] ∧ link.url.getLast? ≠ some '/' ∧
        inspector.disk.contains (inspector.targetPath source file) = false ∧
        inspector.settings.endsAsDocument (inspector.targetPath source file) = false ∧
        inspector.disk.isDirectory
            ((inspector.targetPath source file).append inspector.settings.dottedExtension) =
          true := by
  constructor
  · rintro ⟨other, otherFragment, otherUrl, named⟩
    simp only [url] at otherUrl
    cases otherUrl
    exact named
  · intro named
    exact ⟨file, fragment, url, named⟩

/-- A link to a file gets both pieces of advice if it names a directory with the extension of
documents after it, and one at most otherwise. -/
theorem checkFile_advice {file : Text} {fragment : Option Text}
    (url : Url.target link.url = .file file fragment)
    (checked : (inspector.checkFile source link cache file fragment).result = .ok verdict) :
    (inspector.NamesExtendedDirectory source link ∧ inspector.AdvisesBoth source link verdict) ∨
      (¬ inspector.NamesExtendedDirectory source link ∧ verdict.advice.length ≤ 1) := by
  simp only [namesExtendedDirectory_iff url]
  unfold checkFile at checked
  split at checked
  · next isEmpty =>
    cases checked
    right
    simp [List.isEmpty_iff.1 isEmpty, Verdict.sound]
  · next notEmpty =>
    simp only at checked
    split at checked
    · next reached isPlain =>
      rcases reach_eq_plain_iff.1 isPlain with ⟨rfl, contained⟩
      right
      simp only [checkFragment_advice checked, List.nil_append]
      exact ⟨by simp [contained], length_directoryAdvice_le _⟩
    · next reached isExtended =>
      rcases reach_eq_extended_iff.1 isExtended with ⟨rfl, absent, notDocument, -⟩
      have advice := checkFragment_advice checked
      have fileNe : file ≠ [] := by simpa using notEmpty
      by_cases both : link.url.getLast? ≠ some '/' ∧ inspector.disk.isDirectory
          ((inspector.targetPath source file).append inspector.settings.dottedExtension) = true
      · rcases both with ⟨noSlash, isDirectory⟩
        left
        simp only [directoryAdvice_of_isDirectory isDirectory noSlash] at advice
        exact ⟨⟨fileNe, noSlash, absent, notDocument, isDirectory⟩, _, advice⟩
      · right
        simp only [directoryAdvice_eq_nil both] at advice
        constructor
        · rintro ⟨-, noSlash, -, -, isDirectory⟩
          exact both ⟨noSlash, isDirectory⟩
        · simp [advice]
    · next isNothing =>
      cases checked
      right
      refine ⟨?_, Nat.zero_le 1⟩
      rintro ⟨-, -, absent, notDocument, isDirectory⟩
      simp only [reach_eq_extended_iff.2 ⟨rfl, absent, notDocument,
        Disk.contains_of_isDirectory isDirectory⟩] at isNothing
      cases isNothing

/-- A link gets more than one piece of advice exactly if it names a directory by leaving out the
extension of documents and the slash, and then it gets both. -/
theorem check_advice (checked : (inspector.check cache source link).result = .ok verdict) :
    (verdict.advice.length ≤ 1 ↔ ¬ inspector.NamesExtendedDirectory source link) ∧
      (inspector.NamesExtendedDirectory source link →
        inspector.AdvisesBoth source link verdict) := by
  have notFile : (∀ file fragment, Url.target link.url ≠ .file file fragment) →
      ¬ inspector.NamesExtendedDirectory source link := by
    rintro other ⟨file, fragment, url, -⟩
    exact other file fragment url
  have eitherWay : (inspector.NamesExtendedDirectory source link ∧
      inspector.AdvisesBoth source link verdict) ∨
      (¬ inspector.NamesExtendedDirectory source link ∧ verdict.advice.length ≤ 1) := by
    unfold check at checked
    split at checked
    · next scheme url => exact .inr ⟨notFile (by simp [url]), checkExternal_advice checked⟩
    · next url =>
      refine .inr ⟨notFile (by simp [url]), ?_⟩
      simp only [checkAnchor_advice checked]
      exact Nat.zero_le 1
    · next file fragment url => exact checkFile_advice url checked
  rcases eitherWay with ⟨named, suggestion, both⟩ | ⟨notNamed, atMostOne⟩
  · constructor
    · simp [both, named]
    · intro _
      exact ⟨suggestion, both⟩
  · constructor
    · constructor
      · intro _
        exact notNamed
      · intro _
        exact atMostOne
    · intro named
      exact absurd named notNamed

/-- An inspector of a disk with a directory whose name is that of a document. -/
def sample : Inspector where
  disk := {
    root := .file ⟨Utf8.encode "a.md".toList, by decide⟩ (.bytes [])
      (.directory ⟨Utf8.encode "x.md".toList, by decide⟩ .empty .empty)
    distinct := by
      simp [Listing.Distinct, Listing.names]
      decide
    cwd := [] }
  settings := .default
  root := .ofText "/".toList
  probe := none

/-- A link to the directory of the sample that leaves out the extension and the slash. -/
def sampleLink : Link :=
  ⟨1, "x".toList, "x".toList⟩

theorem check_sampleLink :
    (sample.check .empty (.ofText "/a.md".toList) sampleLink).result = .ok { advice := [
      ⟨.ofText "a.md".toList, 1, "x".toList, .missingExtension "x.md".toList⟩,
      ⟨.ofText "a.md".toList, 1, "x".toList, .directoryWithoutSlash "x/".toList⟩] } := by
  rfl

theorem check_advice_sample :
    ∃ verdict, (sample.check .empty (.ofText "/a.md".toList) sampleLink).result = .ok verdict ∧
      (verdict.advice.length ≤ 1 ↔
        ¬ sample.NamesExtendedDirectory (.ofText "/a.md".toList) sampleLink) ∧
      (sample.NamesExtendedDirectory (.ofText "/a.md".toList) sampleLink →
        sample.AdvisesBoth (.ofText "/a.md".toList) sampleLink verdict) :=
  ⟨_, check_sampleLink, check_advice check_sampleLink⟩

/-- A link can get two pieces of advice. -/
theorem not_forall_length_advice_le_one :
    ¬ ∀ (inspector : Inspector) (cache : AnchorCache) (source : Path) (link : Link)
      (verdict : Verdict), (inspector.check cache source link).result = .ok verdict →
        verdict.advice.length ≤ 1 := by
  intro atMostOne
  have one := atMostOne _ _ _ _ _ check_sampleLink
  simp at one

end Inspector

end MarkdownLinks
