import MarkdownLinks.Proofs.Disk.Written
import MarkdownLinks.Proofs.Inspection.Soundness
import MarkdownLinks.Proofs.Root
import MarkdownLinks.Proofs.Settings.Extension
import MarkdownLinks.Proofs.Url.File

/-!
# Files that are found by their extension

The path that a link means is written as its components are written.  If nothing is there, but a
file is there with the extension of documents, then this file passes for a document, so that the
heading that the link's fragment asks for is looked for in it.  Only the empty path is no name that
the extension could go to.
-/

namespace MarkdownLinks

/-- A path that only goes up leads to a directory. -/
theorem Disk.not_isFile_up (disk : Disk) : disk.isFile ⟨[dot, dot]⟩ = false := by
  apply Bool.eq_false_iff.2
  intro isFile
  rcases exists_of_isFile isFile with ⟨content, found⟩
  rcases at?_of_entry found with ⟨names, located, reached⟩
  rcases locate_eq_resolve located with ⟨-, -, resolved⟩
  rcases Listing.exists_resolve_eq_travel disk.root maxLinks with ⟨follow, travels⟩
  have goesUp : (⟨[dot, dot]⟩ : Path).moves = [.up] := rfl
  rw [goesUp, travels] at resolved
  rcases Listing.exists_directory_of_travel_cons resolved with ⟨entries, start⟩
  rcases Listing.exists_directory_dropLast start with ⟨above, isDirectory⟩
  rw [Listing.travel_up start, Listing.travel] at resolved
  cases resolved
  rw [Disk.at?, isDirectory] at reached
  cases reached

namespace Inspector

variable {inspector : Inspector} {source found : Path} {cache : AnchorCache} {file : Text}

/-- The path that a link means is written as its components are written, wherever the link
stands. -/
theorem ofComponents_components_targetPath (inspector : Inspector) (source : Path) (file : Text) :
    .ofComponents (inspector.targetPath source file).components =
      inspector.targetPath source file := by
  simp only [targetPath]
  split
  · rw [Path.components_ofComponents_components]
  · split
    · next path canonical =>
      rcases Disk.exists_names_of_canonical canonical with ⟨names, -, rfl⟩
      rw [Path.components_ofNames, Path.ofNames]
    · rw [Path.normalize_eq, Position.components_path, Position.path]

/-- The extension makes a name of whatever ends the path that a link means, if a file is found by
it and not by the path. -/
theorem exists_name_of_extended {outer : List Component} {last : Component} {target : Path}
    (noSlash : '/' ∉ inspector.settings.extension)
    (written : .ofComponents target.components = target)
    (components : target.components = outer ++ [last])
    (absent : inspector.disk.contains target = false)
    (isFile : inspector.disk.isFile
      (target.append inspector.settings.dottedExtension) = true) :
    ∃ name : Name, name.bytes =
      last.bytes ++ Utf8.encode inspector.settings.dottedExtension := by
  have noSlashBytes : slash ∉ Utf8.encode inspector.settings.extension :=
    mt (Utf8.mem_of_mem_encode (by decide)) noSlash
  cases last with
  | parent => exact @Path.exists_name_dotted .parent trivial _ noSlashBytes
  | name n => exact @Path.exists_name_dotted (.name n) trivial _ noSlashBytes
  | root =>
    -- The root is always there.
    obtain rfl := Path.eq_nil_of_components_concat components id
    rw [← written, components, List.nil_append, Disk.contains_root] at absent
    cases absent
  | here =>
    obtain rfl := Path.eq_nil_of_components_concat components id
    have extNe : Utf8.encode inspector.settings.extension ≠ [] := by
      intro noExt
      have goesUp : target.append inspector.settings.dottedExtension = ⟨[dot, dot]⟩ := by
        rw [← written, components, Path.append, Settings.dottedExtension, Utf8.encode_dotted, noExt]
        rfl
      rw [goesUp, Disk.not_isFile_up] at isFile
      cases isFile
    refine ⟨⟨dot :: dot :: Utf8.encode inspector.settings.extension, ?_⟩, rfl⟩
    have slashNe : slash ≠ dot := by decide
    simp [isName, extNe, noSlashBytes, slashNe]

/-- A file that is found by its extension has the extension of documents. -/
theorem isDocumentName_of_extended (noDot : '.' ∉ inspector.settings.extension)
    (noSlash : '/' ∉ inspector.settings.extension)
    (nonempty : inspector.targetPath source file ≠ ⟨[]⟩)
    (extended : inspector.reach (inspector.targetPath source file) = .extended found)
    (isFile : inspector.disk.isFile found = true) :
    inspector.settings.isDocumentName found = true := by
  rcases reach_eq_extended_iff.1 extended with ⟨rfl, absent, -, -⟩
  have written := ofComponents_components_targetPath inspector source file
  rcases (inspector.targetPath source file).components.eq_nil_or_concat with
    nothing | ⟨outer, last, components⟩
  · rw [nothing] at written
    exact absurd written.symm nonempty
  · rw [List.concat_eq_append] at components
    rcases exists_name_of_extended noSlash written components absent isFile with ⟨name, longer⟩
    exact Settings.isDocumentName_append noDot written components longer

/-- Whether a result is what looking for a heading among slugs gives: the fault if the slugs cannot
be had, and otherwise a verdict that has no defect exactly if the heading is among them. -/
def LooksFor (fragment : Text) (slugs : Except ReadFault TextSet)
    (result : Except ReadFault Verdict) : Prop :=
  match slugs with
  | .error fault => result = .error fault
  | .ok slugs => ∃ verdict, result = .ok verdict ∧ (verdict.defect = none ↔ fragment ∈ slugs)

theorem checkAnchor_looksFor {document : Path} {link : Link} {fragment message : Text}
    {target : Option Path} {soFar sound : List Advice} :
    LooksFor fragment (cache.slugs inspector.disk document).1
      (inspector.checkAnchor source link cache document fragment message target soFar
        sound).result := by
  rcases given : cache.slugs inspector.disk document with ⟨fault | slugs, after⟩
  · simp only [checkAnchor, given]
    rfl
  · simp only [checkAnchor, given]
    by_cases mem : fragment ∈ slugs
    · rw [if_pos mem]
      exact ⟨_, rfl, by simp [mem]⟩
    · rw [if_neg mem]
      exact ⟨_, rfl, by simp [mem]⟩

/-- The extension of a name and the end of a path's text say the same about whether the path is
that of a document, but for a name that is nothing but the extension; and a path with the extension
after it is that of a document either way.  So every file that a link finds by the extension is
asked for the heading that the link's fragment names. -/
theorem extension_tests_agree (noDot : '.' ∉ inspector.settings.extension)
    (noSlash : '/' ∉ inspector.settings.extension) :
    (∀ (p : Path) (name : Name), Utf8.IsText p.bytes → .ofComponents p.components = p →
      p.fileName? = some name →
        (inspector.settings.isDocumentName p = true ↔
          inspector.settings.endsAsDocument p = true ∧
            name.bytes ≠ Utf8.encode inspector.settings.dottedExtension) ∧
        inspector.settings.isDocumentName
          (p.append inspector.settings.dottedExtension) = true ∧
        inspector.settings.endsAsDocument
          (p.append inspector.settings.dottedExtension) = true) ∧
    ∀ (source found : Path) (link : Link) (fragment : Text) (cache : AnchorCache),
      Url.NamesFile link.url → Url.fragment? link.url = some fragment →
      inspector.targetPath source (Url.filePath link.url) ≠ ⟨[]⟩ →
      inspector.reach (inspector.targetPath source (Url.filePath link.url)) = .extended found →
      inspector.disk.isFile found = true →
        LooksFor fragment (cache.slugs inspector.disk found).1
          (inspector.check cache source link).result := by
  constructor
  · intro p name isText written named
    have noSlashBytes : slash ∉ Utf8.encode inspector.settings.extension :=
      mt (Utf8.mem_of_mem_encode (by decide)) noSlash
    rcases Path.exists_concat_of_fileName? named with ⟨outer, components⟩
    rcases @Path.exists_name_dotted (.name name) trivial _ noSlashBytes with ⟨longer, longerBytes⟩
    exact ⟨Settings.isDocumentName_iff_endsAsDocument noDot noSlash isText written named,
      Settings.isDocumentName_append noDot written components longerBytes,
      Settings.endsAsDocument_append p⟩
  · intro source found link fragment cache names asked nonempty extended isFile
    have isDocument : inspector.hasAnchors found = true :=
      Bool.and_eq_true_iff.2
        ⟨isFile, isDocumentName_of_extended noDot noSlash nonempty extended isFile⟩
    have fileNe : Url.filePath link.url ≠ [] := names.filePath_ne_nil
    simp only [check, Url.target_of_namesFile names, checkFile,
      if_neg (show ¬ (Url.filePath link.url).isEmpty = true by simpa using fileNe), extended, asked,
      checkFragment, Option.filter_some, isDocument, if_true]
    exact checkAnchor_looksFor

/-- A hidden file whose name is the extension, and a link that leads to a document by its extension
only. -/
theorem extension_tests_agree_sample :
    (Settings.default.isDocumentName (.ofText "./r/.md".toList) = true ↔
      Settings.default.endsAsDocument (.ofText "./r/.md".toList) = true ∧
        Utf8.encode ".md".toList ≠ Utf8.encode ".md".toList) ∧
    Settings.default.isDocumentName (.ofText "./r/.md.md".toList) = true ∧
    Settings.default.endsAsDocument (.ofText "./r/.md.md".toList) = true ∧
    (AnchorCache.empty.slugs .sample (.ofText "/r/d/c d.md".toList)).1 =
      .ok (Heading.slugs "# C\n".toList) ∧
    ∃ verdict,
      (check ⟨.sample, .default, .ofText "/r".toList, none⟩ .empty
        (.ofText "/r/index.md".toList) ⟨1, "x".toList, "d/c%20d#x#y".toList⟩).result =
          .ok verdict ∧
      (verdict.defect = none ↔ "#x#y".toList ∈ Heading.slugs "# C\n".toList) := by
  have tests := @extension_tests_agree ⟨.sample, .default, .ofText "/r".toList, none⟩
    (by decide) (by decide)
  have hidden := tests.1 (.ofText "./r/.md".toList) ⟨Utf8.encode ".md".toList, by decide⟩
    ⟨_, rfl⟩ rfl rfl
  have linked := tests.2 (.ofText "/r/index.md".toList) (.ofText "/r/d/c d.md".toList)
    ⟨1, "x".toList, "d/c%20d#x#y".toList⟩ "#x#y".toList .empty
    ⟨by decide, by decide, by decide⟩ rfl (by decide) rfl rfl
  exact ⟨hidden.1, hidden.2.1, hidden.2.2, rfl, linked⟩

end Inspector

end MarkdownLinks
