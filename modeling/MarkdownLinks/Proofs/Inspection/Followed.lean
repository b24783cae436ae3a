import MarkdownLinks.Proofs.Disk.Placed
import MarkdownLinks.Proofs.Disk.Slash
import MarkdownLinks.Proofs.Inspection.Lexical
import MarkdownLinks.Proofs.Inspection.Suggestion
import MarkdownLinks.Proofs.Search.Exact
import MarkdownLinks.Proofs.Url.File

/-!
# Following the advice to write a slash

A link to a directory that is written with a slash after its URL, as the advice says, leads to the
same directory.  Links on the way make no difference: where the path can be followed, the slash is
one move more that stays in the directory, and where it cannot, it is resolved by its names alone.
Only where the path of the directory is as long as a path may be, the slash finds no room behind it,
and a path that could be followed without it is resolved by its names with it.
-/

namespace MarkdownLinks

/-- Whether a verdict advises to write a link with a slash at its end, in this way. -/
def Verdict.AdvisesSlash (verdict : Verdict) (suggestion : Text) : Prop :=
  ∃ advice ∈ verdict.advice, advice.reason = .directoryWithoutSlash suggestion

namespace Inspector

/-- Whether the path that a link to a file means is resolved by its names alone. -/
def IsLexical (inspector : Inspector) (source : Path) (file : Text) : Prop :=
  file.head? = some '/' ∨
    inspector.targetPath source file = (inspector.statedPath source file).normalize

/-- Whether the slash that a link to a directory lacks finds room: the path of the directory is
shorter than a path may be, or the path that the link means does not change with the slash. -/
inductive SlashFits (inspector : Inspector) (source : Path) (url : Text) (directory : Path) : Prop
  | short (room : directory.bytes.length < Disk.maxPathLength)
  | afterFragment (hash : '#' ∈ url)
  | lexical (isLexical : inspector.IsLexical source (Url.filePath url))

/-- Whether a link that is written in another way leads to a directory, and is sound then, with no
slash missing, whatever slugs are known. -/
structure Settles (inspector : Inspector) (source : Path) (link : Link) (suggestion : Text)
    (directory : Path) : Prop where
  leads : inspector.destination? source suggestion = some directory
  sound : ∀ cache, ∃ followed,
    (inspector.check cache source { link with url := suggestion }).result = .ok followed ∧
      followed.defect = none ∧ ∀ other, ¬ followed.AdvisesSlash other

variable {inspector : Inspector} {source directory : Path} {link : Link} {cache : AnchorCache}
  {verdict : Verdict} {suggestion file : Text} {fragment : Option Text}

section Lead

/-- A link whose path can be followed leads where this path leads, and needs no extension. -/
theorem lead?_eq_of_canonical {target path : Path} (notRooted : file.head? ≠ some '/')
    (canonical : inspector.disk.canonical (inspector.statedPath source file) = .ok path)
    (leads : inspector.lead? source file = some target) : target = path := by
  have means : inspector.targetPath source file = path := by
    simp only [targetPath, if_neg notRooted, canonical]
  rw [lead?_eq_some_iff, means] at leads
  rcases leads with plain | extended
  · exact (reach_eq_plain_iff.1 plain).1
  · exfalso
    rcases reach_eq_extended_iff.1 extended with ⟨-, absent, -, contained⟩
    have there := Disk.contains_of_contains_append canonical contained
    rw [absent] at there
    cases there

theorem targetPath_append_slash_of_lead (rootAbsolute : inspector.root.isAbsolute = true)
    (sourceAbsolute : source.isAbsolute = true) (fileNe : file ≠ [])
    (leads : inspector.lead? source file = some directory)
    (isDirectory : inspector.disk.isDirectory directory = true)
    (room : directory.bytes.length < Disk.maxPathLength ∨ inspector.IsLexical source file) :
    inspector.targetPath source (file ++ ['/']) = inspector.targetPath source file := by
  have absolute := isAbsolute_statedPath rootAbsolute sourceAbsolute file
  rcases @statedPath_append_slash inspector source file fileNe with same | longer
  · simp only [targetPath, same, List.head?_append_of_ne_nil _ fileNe]
  · by_cases rooted : file.head? = some '/'
    · simp only [targetPath, longer, List.head?_append_of_ne_nil _ fileNe, if_pos rooted,
        Path.components_append_slash absolute]
    · have nonempty : (inspector.statedPath source file).bytes ≠ [] := by
        rcases Path.isAbsolute_iff.1 absolute with ⟨rest, written⟩
        simp [written]
      simp only [targetPath, longer, List.head?_append_of_ne_nil _ fileNe, if_neg rooted,
        Path.normalize_append_slash absolute]
      cases slashed :
          inspector.disk.canonical ((inspector.statedPath source file).append ['/']) with
      | ok path => rw [Disk.canonical_of_append_slash nonempty slashed]
      | error cause =>
        -- What cannot be made canonical with the slash is resolved by its names.
        cases canonical : inspector.disk.canonical (inspector.statedPath source file) with
        | error other => rfl
        | ok path =>
          obtain rfl := lead?_eq_of_canonical rooted canonical leads
          rcases room with fits | isRooted | lexical
          · rw [Disk.canonical_append_slash nonempty canonical isDirectory fits] at slashed
            cases slashed
          · exact absurd isRooted rooted
          · simp only [targetPath, if_neg rooted, canonical] at lexical
            exact lexical.symm

end Lead

section Check

theorem checkFragment_of_isDirectory {target : Path} {soFar : List Advice}
    (isDirectory : inspector.disk.isDirectory target = true) :
    inspector.checkFragment source link cache target fragment soFar =
      .pure cache { advice := soFar ++ inspector.directoryAdvice source link target } := by
  have notFile : inspector.hasAnchors target = false := by
    apply Bool.eq_false_iff.2
    intro hasAnchors
    have isFile := (Bool.and_eq_true_iff.1 hasAnchors).1
    rw [Disk.not_isDirectory_of_isFile isFile] at isDirectory
    cases isDirectory
  simp [checkFragment, notFile]

/-- Where a link leads somewhere, no slash was missing before its fragment is checked there. -/
theorem exists_checkFile_eq {target : Path} (fileNe : file ≠ [])
    (leads : inspector.lead? source file = some target) :
    ∃ soFar : List Advice,
      (∀ advice ∈ soFar, ∀ other, advice.reason ≠ .directoryWithoutSlash other) ∧
        inspector.checkFile source link cache file fragment =
          inspector.checkFragment source link cache target fragment soFar := by
  rw [checkFile, if_neg (by simpa using fileNe)]
  rcases lead?_eq_some_iff.1 leads with plain | extended
  · exact ⟨[], by simp, by simp only [plain]⟩
  · refine ⟨[inspector.advice source link (.missingExtension
      (file ++ inspector.settings.dottedExtension ++ fragment.getD []))], ?_, ?_⟩
    · simp [advice]
    · simp only [extended]

theorem checkFile_advisesSlash
    (checked : (inspector.checkFile source link cache file fragment).result = .ok verdict)
    (advised : verdict.AdvisesSlash suggestion) :
    file ≠ [] ∧ suggestion = link.url ++ ['/'] ∧ verdict.defect = none ∧
      ∃ directory, inspector.lead? source file = some directory ∧
        inspector.disk.isDirectory directory = true := by
  rcases advised with ⟨advice, mem, reason⟩
  have fileNe : file ≠ [] := by
    rintro rfl
    cases checked
    cases mem
  cases leads : inspector.lead? source file with
  | none =>
    have nothing : inspector.reach (inspector.targetPath source file) = .nothing := by
      rw [lead?] at leads
      split at leads
      · cases leads
      · cases leads
      · next isNothing => exact isNothing
    rw [checkFile, if_neg (by simpa using fileNe)] at checked
    simp only [nothing] at checked
    cases checked
    cases mem
  | some target =>
    rcases @exists_checkFile_eq _ _ link cache _ fragment _ fileNe leads with
      ⟨soFar, notSlash, sameCheck⟩
    rw [sameCheck] at checked
    rw [checkFragment_advice checked] at mem
    rcases List.mem_append.1 mem with before | ofDirectory
    · exact absurd reason (notSlash advice before suggestion)
    · rcases of_mem_directoryAdvice ofDirectory with ⟨isDirectory, other⟩
      rw [reason] at other
      cases other
      rw [checkFragment_of_isDirectory isDirectory] at checked
      cases checked
      exact ⟨fileNe, rfl, rfl, target, rfl, isDirectory⟩

/-- A link to a directory that is written with a slash at its end is sound, and needs no other. -/
theorem exists_checked_slash (fileNe : file ≠ [])
    (leads : inspector.lead? source file = some directory)
    (isDirectory : inspector.disk.isDirectory directory = true)
    (slashed : link.url.getLast? = some '/') :
    ∃ verdict, (inspector.checkFile source link cache file fragment).result = .ok verdict ∧
      verdict.defect = none ∧ ∀ other, ¬ verdict.AdvisesSlash other := by
  rcases @exists_checkFile_eq _ _ link cache _ fragment _ fileNe leads with
    ⟨soFar, notSlash, sameCheck⟩
  have noAdvice : inspector.directoryAdvice source link directory = [] :=
    directoryAdvice_eq_nil (by simp [slashed])
  rw [sameCheck, checkFragment_of_isDirectory isDirectory, noAdvice, List.append_nil]
  refine ⟨_, rfl, rfl, ?_⟩
  rintro other ⟨advice, mem, reason⟩
  exact notSlash advice mem other reason

end Check

/-- Writing the slash that a link lacks settles it: the link is sound already, it leads to the same
directory with the slash, and is sound then, too, with no slash missing.  For this the slash must
find room. -/
theorem check_followed {disk : Disk} {settings : Settings} {given root : Path}
    {probe : Option Probe} (canonical : canonicalRoot disk given = .ok root)
    (absolute : source.isAbsolute = true)
    (checked : (check ⟨disk, settings, root, probe⟩ cache source link).result = .ok verdict)
    (advised : verdict.AdvisesSlash suggestion) :
    verdict.defect = none ∧ ∃ directory, disk.isDirectory directory = true ∧
      destination? ⟨disk, settings, root, probe⟩ source link.url = some directory ∧
      (SlashFits ⟨disk, settings, root, probe⟩ source link.url directory →
        Settles ⟨disk, settings, root, probe⟩ source link suggestion directory) := by
  have rootAbsolute := isAbsolute_of_canonicalRoot canonical
  rcases advised with ⟨advice, mem, reason⟩
  have verified : ∀ cause, advice.reason ≠ .unverified cause := by simp [reason]
  rcases exists_file_of_mem_advice checked mem verified with ⟨file, fragment, url, fileChecked⟩
  rcases checkFile_advisesSlash fileChecked ⟨advice, mem, reason⟩ with
    ⟨fileNe, rfl, sound, directory, leads, isDirectory⟩
  rcases Url.namesFile_of_target url fileNe with ⟨names, rfl, -⟩
  refine ⟨sound, directory, isDirectory, (destination?_of_target url fileNe).trans leads, ?_⟩
  intro fits
  -- The slash is written after the fragment if there is one, and after the path otherwise.
  have leadsStill : lead? ⟨disk, settings, root, probe⟩ source
      (Url.filePath (link.url ++ ['/'])) = some directory := by
    by_cases hash : '#' ∈ link.url
    · rw [Url.filePath_append_slash_of_mem hash]
      exact leads
    · have room : directory.bytes.length < Disk.maxPathLength ∨
          IsLexical ⟨disk, settings, root, probe⟩ source (Url.filePath link.url) := by
        cases fits with
        | short room => exact .inl room
        | afterFragment here => exact absurd here hash
        | lexical isLexical => exact .inr isLexical
      rw [Url.filePath_append_slash hash, lead?,
        targetPath_append_slash_of_lead rootAbsolute absolute fileNe leads isDirectory room]
      exact leads
  have slashedNames := names.append_slash
  constructor
  · rw [destination?_of_target (Url.target_of_namesFile slashedNames) slashedNames.filePath_ne_nil]
    exact leadsStill
  · intro later
    simp only [check, Url.target_of_namesFile slashedNames]
    exact exists_checked_slash slashedNames.filePath_ne_nil leadsStill isDirectory
      List.getLast?_concat

/-- The directory is behind a link, and the slash comes after a fragment. -/
theorem check_followed_sample :
    canonicalRoot Search.sampleDisk (.ofText "/r/loop/loop".toList) = .ok (.ofText "/r".toList) ∧
      (Path.ofText "/r/odd.md/in.md".toList).isAbsolute = true ∧
      ∃ verdict,
        (check ⟨Search.sampleDisk, .default, .ofText "/r".toList, none⟩ .empty
          (.ofText "/r/odd.md/in.md".toList) ⟨1, "x".toList, "../loop#x".toList⟩).result =
            .ok verdict ∧
        verdict.AdvisesSlash "../loop#x/".toList ∧
        verdict.defect = none ∧
        Search.sampleDisk.isDirectory (.ofText "/r".toList) = true ∧
        destination? ⟨Search.sampleDisk, .default, .ofText "/r".toList, none⟩
          (.ofText "/r/odd.md/in.md".toList) "../loop#x".toList = some (.ofText "/r".toList) ∧
        SlashFits ⟨Search.sampleDisk, .default, .ofText "/r".toList, none⟩
          (.ofText "/r/odd.md/in.md".toList) "../loop#x".toList (.ofText "/r".toList) ∧
        Settles ⟨Search.sampleDisk, .default, .ofText "/r".toList, none⟩
          (.ofText "/r/odd.md/in.md".toList) ⟨1, "x".toList, "../loop#x".toList⟩
          "../loop#x/".toList (.ofText "/r".toList) := by
  have canonical : canonicalRoot Search.sampleDisk (.ofText "/r/loop/loop".toList) =
      .ok (.ofText "/r".toList) := by
    rfl
  have absolute : (Path.ofText "/r/odd.md/in.md".toList).isAbsolute = true := by decide
  have checked : (check ⟨Search.sampleDisk, .default, .ofText "/r".toList, none⟩ .empty
      (.ofText "/r/odd.md/in.md".toList) ⟨1, "x".toList, "../loop#x".toList⟩).result =
        .ok { advice := [⟨.ofText "odd.md/in.md".toList, 1, "../loop#x".toList,
          .directoryWithoutSlash "../loop#x/".toList⟩] } := by
    rfl
  have advised : Verdict.AdvisesSlash { advice := [⟨.ofText "odd.md/in.md".toList, 1,
      "../loop#x".toList, .directoryWithoutSlash "../loop#x/".toList⟩] } "../loop#x/".toList :=
    ⟨_, List.mem_singleton_self _, rfl⟩
  have leads : destination? ⟨Search.sampleDisk, .default, .ofText "/r".toList, none⟩
      (.ofText "/r/odd.md/in.md".toList) "../loop#x".toList = some (.ofText "/r".toList) := by
    rfl
  have fits : SlashFits ⟨Search.sampleDisk, .default, .ofText "/r".toList, none⟩
      (.ofText "/r/odd.md/in.md".toList) "../loop#x".toList (.ofText "/r".toList) :=
    .short (by decide)
  rcases check_followed canonical absolute checked advised with
    ⟨sound, directory, isDirectory, same, settles⟩
  cases same.symm.trans leads
  exact ⟨canonical, absolute, _, checked, advised, sound, isDirectory, leads, fits,
    settles fits⟩

end Inspector

namespace Brim

def aside : Name := ⟨Utf8.encode "s".toList, by decide⟩

def current : Name := ⟨Utf8.encode "l".toList, by decide⟩

def last : Name := ⟨List.replicate 254 0x74, by decide⟩

/-- Names of directories, one in the other. -/
def names : List Name :=
  List.replicate 15 Disk.longName

/-- Two directories for the last of them. -/
def entries : Listing :=
  .directory aside .empty (.directory last .empty .empty)

theorem distinct_entries : entries.Distinct :=
  ⟨by decide, trivial, by decide, trivial, trivial⟩

/-- A disk with these directories and a link to one of the last two.  The path of the other is
exactly as long as a path may be. -/
def disk : Disk where
  root := .link current (.ofNames (names ++ [aside])) (Disk.nested entries names)
  distinct := ⟨by decide, Disk.distinct_nested distinct_entries names⟩
  cwd := []

def inspector : Inspector := ⟨disk, .default, .ofNames [], none⟩

def source : Path := .ofText "/a.md".toList

/-- A link to the long path, by way of the other directory. -/
def link : Link := ⟨1, "x".toList, "l/../".toList ++ List.replicate 254 't'⟩

theorem exists_advised : ∃ verdict, (inspector.check .empty source link).result = .ok verdict ∧
    verdict.AdvisesSlash (link.url ++ ['/']) := by
  have reasons : (inspector.check .empty source link).result.toOption.map
      (fun verdict => verdict.advice.map (·.reason)) =
        some [.directoryWithoutSlash (link.url ++ ['/'])] := by
    decide +kernel
  cases checked : (inspector.check .empty source link).result with
  | error fault =>
    rw [checked] at reasons
    cases reasons
  | ok verdict =>
    rw [checked] at reasons
    have same : verdict.advice.map (·.reason) = [.directoryWithoutSlash (link.url ++ ['/'])] :=
      Option.some.inj reasons
    exact ⟨verdict, rfl, List.mem_map.1 (same ▸ List.mem_singleton_self _)⟩

theorem defect_of_check_slashed {verdict : Verdict}
    (checked : (inspector.check .empty source
      { link with url := link.url ++ ['/'] }).result = .ok verdict) : verdict.defect ≠ none := by
  have defective : (inspector.check .empty source
      { link with url := link.url ++ ['/'] }).result.toOption.map (·.defect.isSome) =
        some true := by
    decide +kernel
  rw [checked] at defective
  exact Option.isSome_iff_ne_none.1 (Option.some.inj defective)

end Brim

/-- The slash must fit: behind a path that is as long as a path may be, it makes a link that can be
followed one that cannot. -/
theorem Inspector.not_forall_settles :
    ¬ ∀ (inspector : Inspector) (given source : Path) (cache : AnchorCache) (link : Link)
      (verdict : Verdict) (suggestion : Text), inspector.disk.Readable →
      canonicalRoot inspector.disk given = .ok inspector.root → source.isAbsolute = true →
      (inspector.check cache source link).result = .ok verdict → verdict.AdvisesSlash suggestion →
        verdict.defect = none ∧ ∃ directory, inspector.disk.isDirectory directory = true ∧
          inspector.destination? source link.url = some directory ∧
          inspector.Settles source link suggestion directory := by
  intro settled
  have readable : Brim.inspector.disk.Readable := by decide +kernel
  rcases Brim.exists_advised with ⟨verdict, checked, advised⟩
  rcases settled Brim.inspector (.ofNames []) Brim.source .empty Brim.link verdict _ readable rfl
    (by decide) checked advised with ⟨-, directory, -, -, settles⟩
  rcases settles.sound .empty with ⟨followed, followedChecked, sound, -⟩
  exact Brim.defect_of_check_slashed followedChecked sound

end MarkdownLinks
