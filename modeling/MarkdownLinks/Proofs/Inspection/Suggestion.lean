import MarkdownLinks.Proofs.Inspection.Advice
import MarkdownLinks.Proofs.Inspection.Cache
import MarkdownLinks.Proofs.Inspection.Extended
import MarkdownLinks.Proofs.Inspection.Soundness
import MarkdownLinks.Proofs.Url.Target

/-!
# The suggested links

A link that resolves only with the extension of documents is suggested with the extension after its
path.  The suggestion repeats the path as it was decoded and as far as it goes, whereas the
extension was tried after the path that the link means.  So a suggestion that reads as it is written
is a corrected link exactly if the path of the link ends with a name.
-/

namespace MarkdownLinks

/-- Whether a verdict advises to write a link with the extension of documents, in this way. -/
def Verdict.AdvisesExtension (verdict : Verdict) (suggestion : Text) : Prop :=
  ∃ advice ∈ verdict.advice, advice.reason = .missingExtension suggestion

namespace Inspector

/-- Where a URL leads if it is that of a file. -/
def destination? (inspector : Inspector) (source : Path) (url : Text) : Option Path :=
  match Url.target url with
  | .file file _ => if file.isEmpty then none else inspector.lead? source file
  | _ => none

/-- Whether a suggestion can stand in for a link: it is sound, leads where the link leads, and no
extension is missing any more. -/
def Corrects (inspector : Inspector) (cache : AnchorCache) (source : Path) (link : Link)
    (suggestion : Text) : Prop :=
  ∃ verdict,
    (inspector.check cache source { link with url := suggestion }).result = .ok verdict ∧
      verdict.isSound = true ∧
      inspector.destination? source suggestion = inspector.destination? source link.url ∧
      ∀ other, ¬ verdict.AdvisesExtension other

variable {inspector : Inspector} {source : Path} {link : Link} {cache : AnchorCache}
  {verdict : Verdict} {suggestion : Text}

section Advises

variable {file : Text} {fragment : Option Text}

/-- The extension is advised for a link to a file that exists with the extension only. -/
theorem checkFile_advisesExtension_iff
    (checked : (inspector.checkFile source link cache file fragment).result = .ok verdict) :
    verdict.AdvisesExtension suggestion ↔
      file ≠ [] ∧ (∃ target,
        inspector.reach (inspector.targetPath source file) = .extended target) ∧
        suggestion = file ++ inspector.settings.dottedExtension ++ fragment.getD [] := by
  unfold checkFile at checked
  split at checked
  · next isEmpty =>
    cases checked
    simp [List.isEmpty_iff.1 isEmpty, Verdict.AdvisesExtension, Verdict.sound]
  · next notEmpty =>
    have fileNe : file ≠ [] := by simpa using notEmpty
    simp only at checked
    split at checked
    · next target isPlain =>
      rw [Verdict.AdvisesExtension, checkFragment_advice checked, List.nil_append]
      apply iff_of_false
      · rintro ⟨advice, mem, reason⟩
        rw [(of_mem_directoryAdvice mem).2] at reason
        cases reason
      · simp [isPlain]
    · next target isExtended =>
      rw [Verdict.AdvisesExtension, checkFragment_advice checked]
      constructor
      · rintro ⟨advice, mem, reason⟩
        rcases List.mem_append.1 mem with suggested | ofDirectory
        · obtain rfl := List.mem_singleton.1 suggested
          cases reason
          exact ⟨fileNe, ⟨target, isExtended⟩, rfl⟩
        · rw [(of_mem_directoryAdvice ofDirectory).2] at reason
          cases reason
      · rintro ⟨-, -, rfl⟩
        exact ⟨_, List.mem_append_left _ (List.mem_singleton_self _), rfl⟩
    · next isNothing =>
      cases checked
      simp [isNothing, Verdict.AdvisesExtension]

theorem exists_of_advisesExtension
    (checked : (inspector.check cache source link).result = .ok verdict)
    (advised : verdict.AdvisesExtension suggestion) :
    ∃ file fragment, Url.target link.url = .file file fragment ∧ file ≠ [] ∧
      (∃ target, inspector.reach (inspector.targetPath source file) = .extended target) ∧
      suggestion = file ++ inspector.settings.dottedExtension ++ fragment.getD [] := by
  rcases advised with ⟨advice, mem, reason⟩
  have verified : ∀ cause, advice.reason ≠ .unverified cause := by simp [reason]
  rcases exists_file_of_mem_advice checked mem verified with ⟨file, fragment, url, fileChecked⟩
  exact ⟨file, fragment, url,
    (checkFile_advisesExtension_iff fileChecked).1 ⟨advice, mem, reason⟩⟩

end Advises

section Plain

variable {base outer : List Name} {last : Name} {file : Text} {fragment : Option Text}

theorem destination?_of_target {url : Text} (isFile : Url.target url = .file file fragment)
    (fileNe : file ≠ []) : inspector.destination? source url = inspector.lead? source file := by
  simp [destination?, isFile, fileNe]

/-- A plain suggestion corrects a link exactly if the path with the extension exists as it is
stated then, and it is the path that the extension was found for. -/
theorem corrects_iff {stated : Path} (url : Url.target link.url = .file file fragment)
    (fileNe : file ≠ [])
    (extended : inspector.reach (inspector.targetPath source file) = .extended stated)
    (answers : inspector.Answers stated fragment)
    (plain : Url.IsPlain (file ++ inspector.settings.dottedExtension)) :
    inspector.Corrects .empty source link
        (file ++ inspector.settings.dottedExtension ++ fragment.getD []) ↔
      inspector.targetPath source (file ++ inspector.settings.dottedExtension) = stated := by
  have longerNe : file ++ inspector.settings.dottedExtension ≠ [] := by simp [fileNe]
  have suggested : Url.target (file ++ inspector.settings.dottedExtension ++ fragment.getD []) =
      .file (file ++ inspector.settings.dottedExtension) fragment :=
    Url.target_of_isPlain plain longerNe (Url.exists_of_target_eq_file url)
  have leads : inspector.lead? source file = some stated := lead?_eq_some_iff.2 (.inr extended)
  rw [Corrects, destination?_of_target suggested longerNe, destination?_of_target url fileNe,
    leads]
  simp only [check, suggested]
  constructor
  · rintro ⟨verdict, checked, -, sameLead, notAdvised⟩
    rcases lead?_eq_some_iff.1 sameLead with isPlain | isExtended
    · exact (reach_eq_plain_iff.1 isPlain).1.symm
    · exfalso
      exact notAdvised _ ((checkFile_advisesExtension_iff checked).2
        ⟨longerNe, ⟨stated, isExtended⟩, rfl⟩)
  · intro sameTarget
    have contained : inspector.disk.contains stated = true := by
      rcases reach_eq_extended_iff.1 extended with ⟨rfl, -, -, found⟩
      exact found
    have reached : inspector.reach (inspector.targetPath source
        (file ++ inspector.settings.dottedExtension)) = .plain stated := by
      rw [sameTarget]
      exact reach_eq_plain_iff.2 ⟨rfl, contained⟩
    have sameLead := (@lead?_eq_some_iff inspector source _ stated).2 (.inl reached)
    have noDefect := (@checkFile_findsNoDefect_iff inspector source
      { link with url := file ++ inspector.settings.dottedExtension ++ fragment.getD [] } _ fragment
      longerNe).2 ⟨stated, sameLead, answers⟩
    rcases noDefect with ⟨verdict, checked, sound⟩
    refine ⟨verdict, checked, sound, sameLead, ?_⟩
    intro other advised
    rcases (checkFile_advisesExtension_iff checked).1 advised with ⟨-, ⟨target, isExtended⟩, -⟩
    rw [reached] at isExtended
    cases isExtended

end Plain

theorem corrects_iff_fresh (faithful : cache.Faithful inspector.disk)
    (rootAbsolute : inspector.root.isAbsolute = true) (tidy : source.IsTidy) :
    inspector.Corrects cache source link suggestion ↔
      inspector.Corrects .empty source link suggestion := by
  rw [Corrects, Corrects, (check_sameAs faithful rootAbsolute tidy _).result]

/-- The suggestion for a sound link is its decoded path with the extension and the fragment after
it.  If this reads as it is written, it is a corrected link exactly if the path ends with a name. -/
theorem check_suggestion {disk : Disk} {settings : Settings} {given root : Path}
    {probe : Option Probe} {later : AnchorCache} (linkFree : disk.LinkFree)
    (canonical : canonicalRoot disk given = .ok root)
    (document : source ∈ Search.documents disk settings root)
    (faithful : cache.Faithful disk) (laterFaithful : later.Faithful disk)
    (checked : (check ⟨disk, settings, root, probe⟩ cache source link).result = .ok verdict)
    (sound : verdict.isSound = true) (advised : verdict.AdvisesExtension suggestion) :
    ∃ file fragment, Url.target link.url = .file file fragment ∧
      suggestion = file ++ settings.dottedExtension ++ fragment.getD [] ∧
      (Url.IsPlain (file ++ settings.dottedExtension) →
        (Corrects ⟨disk, settings, root, probe⟩ later source link suggestion ↔
          (Path.ofText file).endsWithName = true)) := by
  rcases exists_names_of_canonicalRoot canonical with ⟨base, entries, rfl, found⟩
  rcases Search.exists_names_of_mem_documents found document with
    ⟨names, namesNe, rfl, isDocument⟩
  have rootAbsolute : (Path.ofNames base).isAbsolute = true := (Path.isTidy_ofNames base).isAbsolute
  have sourceTidy : (Path.ofNames (base ++ names)).IsTidy := Path.isTidy_ofNames _
  have same := @check_sameAs ⟨disk, settings, .ofNames base, probe⟩ _ cache faithful rootAbsolute
    sourceTidy link
  rw [same.result] at checked
  rcases exists_of_advisesExtension checked advised with
    ⟨file, fragment, url, fileNe, ⟨stated, extended⟩, rfl⟩
  refine ⟨file, fragment, url, rfl, ?_⟩
  intro plain
  have answers : Answers ⟨disk, settings, .ofNames base, probe⟩ stated fragment := by
    simp only [check, url] at checked
    rcases (checkFile_findsNoDefect_iff fileNe).1 ⟨verdict, checked, sound⟩ with
      ⟨target, leads, answers⟩
    rw [lead?, extended] at leads
    cases leads
    exact answers
  refine (corrects_iff_fresh laterFaithful rootAbsolute sourceTidy).trans
    ((corrects_iff url fileNe extended answers plain).trans ?_)
  have noSlash : slash ∉ Utf8.encode settings.extension :=
    Settings.slash_not_mem_extension (Bool.and_eq_true_iff.1 isDocument).1
  rcases names.eq_nil_or_concat with rfl | ⟨outer, last, rfl⟩
  · exact absurd rfl namesNe
  · rw [List.concat_eq_append, ← List.append_assoc] at extended ⊢
    rcases reach_eq_extended_iff.1 extended with ⟨rfl, absent, -, there⟩
    exact @targetPath_append_iff ⟨disk, settings, .ofNames base, probe⟩ base (base ++ outer) last
      file settings.extension linkFree rfl fileNe noSlash absent there

theorem index_mem_documents :
    .ofText "/r/index.md".toList ∈
      Search.documents .sample .default (.ofText "/r".toList) := by
  rw [Disk.documents_sample]
  decide

/-- The path of the link ends with a name, which the suggestion decodes. -/
theorem check_suggestion_sample :
    Disk.sample.LinkFree ∧
      canonicalRoot .sample (.ofText "/r/d/..".toList) = .ok (.ofText "/r".toList) ∧
      .ofText "/r/index.md".toList ∈
        Search.documents .sample .default (.ofText "/r".toList) ∧
      AnchorCache.empty.Faithful .sample ∧
      ∃ verdict, (check ⟨.sample, .default, .ofText "/r".toList, none⟩ .empty
          (.ofText "/r/index.md".toList) ⟨1, "x".toList, "d/c%20d#c".toList⟩).result =
            .ok verdict ∧
        verdict.isSound = true ∧ verdict.AdvisesExtension "d/c d.md#c".toList ∧
        ∃ file fragment, Url.target "d/c%20d#c".toList = .file file fragment ∧
          "d/c d.md#c".toList =
            file ++ Settings.default.dottedExtension ++ fragment.getD [] ∧
          (Url.IsPlain (file ++ Settings.default.dottedExtension) →
            (Corrects ⟨.sample, .default, .ofText "/r".toList, none⟩ .empty
                (.ofText "/r/index.md".toList) ⟨1, "x".toList, "d/c%20d#c".toList⟩
                "d/c d.md#c".toList ↔
              (Path.ofText file).endsWithName = true)) := by
  have linkFree : Disk.sample.LinkFree := by decide
  have faithful : AnchorCache.empty.Faithful .sample := AnchorCache.faithful_empty .sample
  have checked : (check ⟨.sample, .default, .ofText "/r".toList, none⟩ .empty
      (.ofText "/r/index.md".toList) ⟨1, "x".toList, "d/c%20d#c".toList⟩).result =
        .ok { advice := [⟨.ofText "index.md".toList, 1, "d/c%20d#c".toList,
          .missingExtension "d/c d.md#c".toList⟩] } := by
    rfl
  have advised : Verdict.AdvisesExtension { advice := [⟨.ofText "index.md".toList, 1,
      "d/c%20d#c".toList, .missingExtension "d/c d.md#c".toList⟩] } "d/c d.md#c".toList :=
    ⟨_, List.mem_singleton_self _, rfl⟩
  exact ⟨linkFree, Disk.canonicalRoot_sample, index_mem_documents, faithful, _, checked, rfl,
    advised, check_suggestion linkFree Disk.canonicalRoot_sample index_mem_documents faithful
      faithful checked rfl advised⟩

/-- A suggestion can be no corrected link: a slash at the end of a link stays in it. -/
theorem not_forall_corrects :
    ¬ ∀ (disk : Disk) (settings : Settings) (given root : Path) (probe : Option Probe)
      (source : Path) (link : Link) (verdict : Verdict) (suggestion : Text), disk.LinkFree →
        canonicalRoot disk given = .ok root → '/' ∉ settings.extension →
        '.' ∉ settings.extension → source ∈ Search.documents disk settings root →
        (check ⟨disk, settings, root, probe⟩ .empty source link).result = .ok verdict →
        verdict.isSound = true → verdict.AdvisesExtension suggestion →
        Corrects ⟨disk, settings, root, probe⟩ .empty source link suggestion := by
  intro corrects
  have checked : (check ⟨.sample, .default, .ofText "/r".toList, none⟩ .empty
      (.ofText "/r/index.md".toList) ⟨1, "x".toList, "d/c%20d/".toList⟩).result =
        .ok { advice := [⟨.ofText "index.md".toList, 1, "d/c%20d/".toList,
          .missingExtension "d/c d/.md".toList⟩] } := by
    rfl
  rcases corrects _ _ _ _ none _ _ _ "d/c d/.md".toList (by decide) Disk.canonicalRoot_sample
    (by decide) (by decide) index_mem_documents checked rfl
    ⟨_, List.mem_singleton_self _, rfl⟩ with ⟨verdict, later, sound, -⟩
  have broken : (check ⟨.sample, .default, .ofText "/r".toList, none⟩ .empty
      (.ofText "/r/index.md".toList) ⟨1, "x".toList, "d/c d/.md".toList⟩).result =
        .ok { defect := some ⟨.ofText "index.md".toList, 1, "d/c d/.md".toList, "x".toList,
          "File not found".toList, .missingFile (.ofText "/r/d/c d/.md".toList)⟩ } := by
    rfl
  rw [broken] at later
  cases later
  cases sound

end Inspector

end MarkdownLinks
