import MarkdownLinks.Proofs.Inspection.Advice
import MarkdownLinks.Proofs.Inspection.Lexical
import MarkdownLinks.Proofs.Inspection.Verdict

/-!
# Links that are written in another way

If a link is written in another way and still means the same path, then its check finds the same.
Only the URL that the findings show changes, and with it what they suggest.  A slash before a link
of a document in the root is such a change, and so is a slash after a link; after the latter, no
slash is missing any more.
-/

namespace MarkdownLinks

/-- Another way to write a link: its URL, and what becomes of the reasons to advise on it. -/
structure Respelling where
  url : Text
  reason? : Advice.Reason → Option Advice.Reason

namespace Respelling

variable (respelling : Respelling)

def link (link : Link) : Link :=
  { link with url := respelling.url }

def defect (defect : Defect) : Defect :=
  { defect with url := respelling.url }

def advice? (advice : Advice) : Option Advice :=
  (respelling.reason? advice.reason).map fun reason =>
    { advice with url := respelling.url, reason := reason }

def verdict (verdict : Verdict) : Verdict where
  defect := verdict.defect.map respelling.defect
  advice := verdict.advice.filterMap respelling.advice?

end Respelling

namespace Inspector

variable {inspector : Inspector} {source : Path} {link : Link} {respelling : Respelling}
  {cache : AnchorCache} {fragment : Option Text}

theorem advice?_advice (reason : Advice.Reason) :
    respelling.advice? (inspector.advice source link reason) =
      (respelling.reason? reason).map (inspector.advice source (respelling.link link)) :=
  rfl

theorem checkAnchor_respelled (document : Path) (anchor message : Text) (target : Option Path)
    (soFar sound : List Advice) :
    inspector.checkAnchor source (respelling.link link) cache document anchor message target
        (soFar.filterMap respelling.advice?) (sound.filterMap respelling.advice?) =
      (inspector.checkAnchor source link cache document anchor message target soFar sound).map
        respelling.verdict := by
  simp only [checkAnchor]
  split
  · rfl
  · split
    · rfl
    · rfl

section Directory

variable (directory : ∀ target,
  inspector.directoryAdvice source (respelling.link link) target =
    (inspector.directoryAdvice source link target).filterMap respelling.advice?)

include directory

theorem checkFragment_respelled (target : Path) (soFar : List Advice) :
    inspector.checkFragment source (respelling.link link) cache target fragment
        (soFar.filterMap respelling.advice?) =
      (inspector.checkFragment source link cache target fragment soFar).map respelling.verdict := by
  simp only [checkFragment, directory, ← List.filterMap_append]
  split
  · exact checkAnchor_respelled target _ _ _ soFar _
  · rfl

/-- A link that means the same path when it is written in another way is checked alike. -/
theorem checkFile_respelled {file other : Text} (fileNe : file ≠ []) (otherNe : other ≠ [])
    (sameTarget : inspector.targetPath source other = inspector.targetPath source file)
    (extension :
      respelling.reason? (.missingExtension
          (file ++ inspector.settings.dottedExtension ++ fragment.getD [])) =
        some (.missingExtension
          (other ++ inspector.settings.dottedExtension ++ fragment.getD []))) :
    inspector.checkFile source (respelling.link link) cache other fragment =
      (inspector.checkFile source link cache file fragment).map respelling.verdict := by
  rw [checkFile, checkFile, if_neg (by simpa using otherNe), if_neg (by simpa using fileNe),
    sameTarget]
  simp only
  cases inspector.reach (inspector.targetPath source file) with
  | plain target => exact checkFragment_respelled directory target []
  | extended target =>
    have suggested : [inspector.advice source (respelling.link link) (.missingExtension
        (other ++ inspector.settings.dottedExtension ++ fragment.getD []))] =
        [inspector.advice source link (.missingExtension
          (file ++ inspector.settings.dottedExtension ++ fragment.getD []))].filterMap
            respelling.advice? := by
      rw [List.filterMap_cons, advice?_advice, extension]
      rfl
    simp only [suggested]
    exact checkFragment_respelled directory target _
  | nothing => rfl

/-- Where the URL of a file is written in another way and means the same path, with the same
fragment, there are verdicts on both and they differ in no more than the writing. -/
theorem exists_check_respelled (readable : inspector.disk.Readable)
    (names : Url.NamesFile link.url)
    (otherNames : Url.NamesFile respelling.url)
    (sameFragment : Url.fragment? respelling.url = Url.fragment? link.url)
    (sameTarget : inspector.targetPath source (Url.filePath respelling.url) =
      inspector.targetPath source (Url.filePath link.url))
    (extension :
      respelling.reason? (.missingExtension (Url.filePath link.url ++
          inspector.settings.dottedExtension ++ (Url.fragment? link.url).getD [])) =
        some (.missingExtension (Url.filePath respelling.url ++
          inspector.settings.dottedExtension ++ (Url.fragment? link.url).getD []))) :
    ∃ verdict, (inspector.check .empty source link).result = .ok verdict ∧
      (inspector.check .empty source (respelling.link link)).result =
        .ok (respelling.verdict verdict) := by
  rcases @exists_judged_checkFile inspector source link (Url.fragment? link.url) _ readable
    names.filePath_ne_nil with ⟨verdict, checked, -⟩
  have target : Url.target (respelling.link link).url =
      .file (Url.filePath respelling.url) (Url.fragment? link.url) := by
    rw [← sameFragment]
    exact Url.target_of_namesFile otherNames
  refine ⟨verdict, ?_, ?_⟩
  · simp only [check, Url.target_of_namesFile names]
    exact checked
  · simp only [check, target]
    rw [checkFile_respelled directory names.filePath_ne_nil otherNames.filePath_ne_nil sameTarget
      extension, Inspection.map, checked]
    rfl

end Directory

end Inspector

/-- The reason with a slash before the URL that it suggests. -/
def Advice.Reason.rooted : Reason → Reason
  | .directoryWithoutSlash suggestion => .directoryWithoutSlash ('/' :: suggestion)
  | .unverified reason => .unverified reason
  | .missingExtension suggestion => .missingExtension ('/' :: suggestion)

@[simp]
theorem Advice.Reason.name_rooted (reason : Reason) : reason.rooted.name = reason.name := by
  cases reason <;> rfl

namespace Respelling

/-- A URL with a slash before it. -/
def rooted (url : Text) : Respelling where
  url := '/' :: url
  reason? reason := some reason.rooted

/-- The URL of a file with a slash after it. -/
def slashed (url extension : Text) : Respelling where
  url := url ++ ['/']
  reason?
    | .directoryWithoutSlash _ => none
    | .unverified reason => some (.unverified reason)
    | .missingExtension _ => some (.missingExtension (Url.filePath url ++ '/' :: extension))

theorem advice_rooted (url : Text) (verdict : Verdict) :
    ((rooted url).verdict verdict).advice = verdict.advice.map fun advice =>
      { advice with url := '/' :: url, reason := advice.reason.rooted } :=
  congrFun List.filterMap_eq_map verdict.advice

/-- Advice to write a slash is gone once there is one, and other advice stays. -/
theorem map_name_slashed (url extension : Text) (verdict : Verdict) :
    ((slashed url extension).verdict verdict).advice.map (·.reason.name) =
      (verdict.advice.map (·.reason.name)).filter (· ≠ "directory_no_slash".toList) := by
  have one : ∀ advice : Advice, ((slashed url extension).advice? advice).map (·.reason.name) =
      Option.guard (· ≠ "directory_no_slash".toList) advice.reason.name := by
    rintro ⟨file, line, url, reason⟩
    cases reason <;> rfl
  rw [← List.filterMap_eq_filter, List.filterMap_map, Respelling.verdict, List.map_filterMap]
  exact List.filterMap_congr fun advice _ => one advice

theorem reason_ne_directoryWithoutSlash {url extension : Text} {verdict : Verdict}
    {advice : Advice} (mem : advice ∈ ((slashed url extension).verdict verdict).advice)
    (suggestion : Text) : advice.reason ≠ .directoryWithoutSlash suggestion := by
  rcases List.mem_filterMap.1 mem with ⟨⟨file, line, given, reason⟩, -, kept⟩
  cases reason with
  | directoryWithoutSlash => cases kept
  | unverified cause =>
    cases kept
    simp
  | missingExtension given =>
    cases kept
    simp

end Respelling

namespace Inspector

variable {inspector : Inspector} {source : Path} {link : Link}

theorem directoryAdvice_rooted (urlNe : link.url ≠ []) (target : Path) :
    inspector.directoryAdvice source ((Respelling.rooted link.url).link link) target =
      (inspector.directoryAdvice source link target).filterMap
        (Respelling.rooted link.url).advice? := by
  have sameEnd : ((Respelling.rooted link.url).link link).url.getLast? = link.url.getLast? :=
    List.getLast?_append_of_ne_nil ['/'] urlNe
  rw [directoryAdvice, directoryAdvice, sameEnd]
  split
  · rfl
  · rfl

theorem directoryAdvice_slashed (extension : Text) (target : Path) :
    inspector.directoryAdvice source ((Respelling.slashed link.url extension).link link) target =
      (inspector.directoryAdvice source link target).filterMap
        (Respelling.slashed link.url extension).advice? := by
  have endsWithSlash :
      ((Respelling.slashed link.url extension).link link).url.getLast? = some '/' :=
    List.getLast?_concat
  rw [directoryAdvice_eq_nil (by simp [endsWithSlash]), directoryAdvice]
  split
  · rfl
  · rfl

/-- In a document that lies in the root, a slash before a link that does not go up changes nothing
but what the findings repeat of the link. -/
theorem check_rooted {disk : Disk} {settings : Settings} {given root : Path}
    {probe : Option Probe} (linkFree : disk.LinkFree) (readable : disk.Readable)
    (canonical : canonicalRoot disk given = .ok root) (inRoot : source.parent? = some root)
    (names : Url.NamesFile link.url)
    (noParent : .parent ∉ (Path.ofText (Url.filePath link.url)).components) :
    ∃ verdict rooted,
      (check ⟨disk, settings, root, probe⟩ .empty source link).result = .ok verdict ∧
        (check ⟨disk, settings, root, probe⟩ .empty source
          { link with url := '/' :: link.url }).result = .ok rooted ∧
        rooted.defect =
          verdict.defect.map (fun defect => { defect with url := '/' :: link.url }) ∧
        rooted.advice = verdict.advice.map (fun advice =>
          { advice with url := '/' :: link.url, reason := advice.reason.rooted }) ∧
        rooted.advice.map (·.reason.name) = verdict.advice.map (·.reason.name) := by
  rcases exists_names_of_canonicalRoot canonical with ⟨base, -, rfl, -⟩
  have sameTarget := @targetPath_cons_slash ⟨disk, settings, .ofNames base, probe⟩ source _ base rfl
    inRoot linkFree noParent
  rw [← Url.filePath_cons_slash] at sameTarget
  rcases @exists_check_respelled ⟨disk, settings, .ofNames base, probe⟩ source link
    (.rooted link.url) (directoryAdvice_rooted names.nonempty) readable names
    (Url.namesFile_cons_slash link.url) (Url.fragment?_cons_slash link.url) sameTarget
    (by rw [Respelling.rooted, Url.filePath_cons_slash]; rfl) with ⟨verdict, checked, rooted⟩
  have advice := Respelling.advice_rooted link.url verdict
  refine ⟨verdict, _, checked, rooted, rfl, advice, ?_⟩
  rw [advice, List.map_map]
  exact List.map_congr_left fun advice _ => advice.reason.name_rooted

/-- The link leads on with an extension only, and to a document without the heading. -/
theorem check_rooted_sample :
    Disk.sample.LinkFree ∧ Disk.sample.Readable ∧
      canonicalRoot .sample (.ofText "/r/d/..".toList) = .ok (.ofText "/r".toList) ∧
      (Path.ofText "/r/index.md".toList).parent? = some (.ofText "/r".toList) ∧
      Url.NamesFile "./d//c%20d/#x".toList ∧
      .parent ∉ (Path.ofText (Url.filePath "./d//c%20d/#x".toList)).components ∧
      ∃ verdict rooted,
        (check ⟨.sample, .default, .ofText "/r".toList, none⟩ .empty (.ofText "/r/index.md".toList)
          ⟨1, "x".toList, "./d//c%20d/#x".toList⟩).result = .ok verdict ∧
        (check ⟨.sample, .default, .ofText "/r".toList, none⟩ .empty (.ofText "/r/index.md".toList)
          ⟨1, "x".toList, "/./d//c%20d/#x".toList⟩).result = .ok rooted ∧
        rooted.defect =
          verdict.defect.map (fun defect => { defect with url := "/./d//c%20d/#x".toList }) ∧
        rooted.advice = verdict.advice.map (fun advice =>
          { advice with url := "/./d//c%20d/#x".toList, reason := advice.reason.rooted }) ∧
        rooted.advice.map (·.reason.name) = verdict.advice.map (·.reason.name) := by
  have linkFree : Disk.sample.LinkFree := by decide
  have readable : Disk.sample.Readable := by decide
  have inRoot : (Path.ofText "/r/index.md".toList).parent? = some (.ofText "/r".toList) := by
    decide
  have names : Url.NamesFile "./d//c%20d/#x".toList := ⟨by decide, by decide, by decide⟩
  have noParent : .parent ∉ (Path.ofText (Url.filePath "./d//c%20d/#x".toList)).components := by
    decide
  exact ⟨linkFree, readable, Disk.canonicalRoot_sample, inRoot, names, noParent,
    @check_rooted _ ⟨1, "x".toList, "./d//c%20d/#x".toList⟩ _ _ _ _ none linkFree
      readable Disk.canonicalRoot_sample inRoot names noParent⟩

/-- A slash after a link without fragment changes nothing but what the findings repeat of the link,
and that no slash is missing. -/
theorem check_slashed {disk : Disk} {settings : Settings} {given root : Path}
    {probe : Option Probe} (linkFree : disk.LinkFree) (readable : disk.Readable)
    (canonical : canonicalRoot disk given = .ok root) (absolute : source.isAbsolute = true)
    (names : Url.NamesFile link.url) (noHash : '#' ∉ link.url) :
    ∃ verdict slashed,
      (check ⟨disk, settings, root, probe⟩ .empty source link).result = .ok verdict ∧
        (check ⟨disk, settings, root, probe⟩ .empty source
          { link with url := link.url ++ ['/'] }).result = .ok slashed ∧
        slashed.defect =
          verdict.defect.map (fun defect => { defect with url := link.url ++ ['/'] }) ∧
        slashed.advice.map (·.reason.name) =
          (verdict.advice.map (·.reason.name)).filter (· ≠ "directory_no_slash".toList) ∧
        ∀ advice ∈ slashed.advice, ∀ suggestion,
          advice.reason ≠ .directoryWithoutSlash suggestion := by
  rcases exists_names_of_canonicalRoot canonical with ⟨base, -, rfl, -⟩
  have sameTarget := @targetPath_append_slash ⟨disk, settings, .ofNames base, probe⟩ source _
    linkFree (Path.isTidy_ofNames base).isAbsolute absolute names.filePath_ne_nil
  rw [← Url.filePath_append_slash noHash] at sameTarget
  have noFragment : Url.fragment? (link.url ++ ['/']) = Url.fragment? link.url := by
    rw [Url.fragment?_eq_none noHash, Url.fragment?_eq_none (by simp [noHash])]
  have extension : (Respelling.slashed link.url settings.dottedExtension).reason?
      (.missingExtension (Url.filePath link.url ++ settings.dottedExtension ++
        (Url.fragment? link.url).getD [])) =
      some (.missingExtension (Url.filePath (link.url ++ ['/']) ++ settings.dottedExtension ++
        (Url.fragment? link.url).getD [])) := by
    rw [Url.fragment?_eq_none noHash, Url.filePath_append_slash noHash]
    simp [Respelling.slashed]
  rcases @exists_check_respelled ⟨disk, settings, .ofNames base, probe⟩ source link
    (.slashed link.url settings.dottedExtension) (directoryAdvice_slashed _) readable
    names names.append_slash noFragment sameTarget extension with ⟨verdict, checked, slashed⟩
  exact ⟨verdict, _, checked, slashed, rfl, Respelling.map_name_slashed _ _ verdict,
    fun _ mem => Respelling.reason_ne_directoryWithoutSlash mem⟩

/-- The way to the directory goes through an entry that is not there, and no advice is left when a
slash follows. -/
theorem check_slashed_sample :
    Disk.sample.LinkFree ∧ Disk.sample.Readable ∧
      canonicalRoot .sample (.ofText "/r/d/..".toList) = .ok (.ofText "/r".toList) ∧
      (Path.ofText "/r/d/../index.md".toList).isAbsolute = true ∧
      Url.NamesFile "x%/../d".toList ∧ '#' ∉ "x%/../d".toList ∧
      ∃ verdict slashed,
        (check ⟨.sample, .default, .ofText "/r".toList, none⟩ .empty
          (.ofText "/r/d/../index.md".toList) ⟨1, "x".toList, "x%/../d".toList⟩).result =
            .ok verdict ∧
        (check ⟨.sample, .default, .ofText "/r".toList, none⟩ .empty
          (.ofText "/r/d/../index.md".toList) ⟨1, "x".toList, "x%/../d/".toList⟩).result =
            .ok slashed ∧
        slashed.defect =
          verdict.defect.map (fun defect => { defect with url := "x%/../d/".toList }) ∧
        slashed.advice.map (·.reason.name) =
          (verdict.advice.map (·.reason.name)).filter (· ≠ "directory_no_slash".toList) ∧
        ∀ advice ∈ slashed.advice, ∀ suggestion,
          advice.reason ≠ .directoryWithoutSlash suggestion := by
  have linkFree : Disk.sample.LinkFree := by decide
  have readable : Disk.sample.Readable := by decide
  have absolute : (Path.ofText "/r/d/../index.md".toList).isAbsolute = true := by decide
  have names : Url.NamesFile "x%/../d".toList := ⟨by decide, by decide, by decide⟩
  have noHash : '#' ∉ "x%/../d".toList := by decide
  exact ⟨linkFree, readable, Disk.canonicalRoot_sample, absolute, names, noHash,
    @check_slashed _ ⟨1, "x".toList, "x%/../d".toList⟩ _ _ _ _ none linkFree
      readable Disk.canonicalRoot_sample absolute names noHash⟩

end Inspector

end MarkdownLinks
