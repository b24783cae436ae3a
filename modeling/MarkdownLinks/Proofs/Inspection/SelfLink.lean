import MarkdownLinks.Proofs.Inspection.Cache
import MarkdownLinks.Proofs.Inspection.Headings
import MarkdownLinks.Proofs.Inspection.Verdict

/-!
# Links of a document to itself

A document can link to a heading of its own by a fragment alone, or by its file name with the
fragment after it.  The two links are checked in different ways, but both ask for the same heading
of the same document, and so neither is sound without the other.
-/

namespace MarkdownLinks

namespace Url

/-- The URL of a heading in the file with a name, as a document beside this file links to it. -/
def ofName (name : Name) (anchor : Text) : Text :=
  Percent.escape name.bytes ++ '#' :: anchor

theorem target_hash (anchor : Text) : target ('#' :: anchor) = .sameDocument := by
  have notLetter : isLetter '#' = false := rfl
  rw [target, scheme?_cons notLetter, Option.filter_none]
  rfl

theorem target_ofName {name : Name} {path : Text} (pathNe : path ≠ [])
    (written : name.bytes = Utf8.encode path) (anchor : Text) :
    target (ofName name anchor) = .file path (some ('#' :: anchor)) := by
  rw [ofName, written]
  exact target_escape_append_fragment pathNe anchor

end Url

namespace Inspector

variable {inspector : Inspector} {source document : Path} {name : Name} {cache other : AnchorCache}
  {link : Link} {anchor : Text}

/-- Asking a document for a heading depends on the document alone: what is asked for it is found
missing together with the same slugs, whoever asks. -/
theorem checkAnchor_of_isFile (readable : inspector.disk.Readable)
    (isFile : inspector.disk.isFile document = true) (fragment : Text) :
    (Document.HasHeading inspector.disk document fragment ∧ ∀ link message target,
      (inspector.checkAnchor source link .empty document fragment message target [] []).result =
        .ok .sound) ∨
    (¬ Document.HasHeading inspector.disk document fragment ∧ ∃ available, ∀ link message target,
      (inspector.checkAnchor source link .empty document fragment message target [] []).result =
        .ok { defect := some (inspector.defect source link message
          (.missingAnchor available fragment target)) }) := by
  rcases Document.exists_read_of_isFile readable isFile with ⟨text, read⟩
  rw [Document.hasHeading_iff_of_read read]
  by_cases mem : fragment ∈ Heading.slugs text
  · left
    refine ⟨mem, ?_⟩
    intro link message target
    rw [checkAnchor_of_read read, if_pos mem]
    rfl
  · right
    refine ⟨mem, (Heading.slugs text).toList.take sampleSize, ?_⟩
    intro link message target
    rw [checkAnchor_of_read read, if_neg mem]

/-- A document that is no link is found again by its own name. -/
theorem targetPath_ownName {outer : List Name} {path : Text}
    (settled : inspector.disk.canonical (.ofNames (outer ++ [name])) =
      .ok (.ofNames (outer ++ [name])))
    (written : name.bytes = Utf8.encode path) :
    inspector.targetPath (.ofNames (outer ++ [name])) path = .ofNames (outer ++ [name]) := by
  have alone : Path.ofText path = Path.below [name] := by
    rw [Path.below_singleton, written, Path.ofText]
  apply targetPath_of_canonical
  · rw [alone]
    exact Path.isAbsolute_below [name]
  · rw [alone, Path.join_below outer (List.cons_ne_nil name [])]
    exact settled

theorem check_hash (rootAbsolute : inspector.root.isAbsolute = true) (tidy : source.IsTidy)
    (faithful : cache.Faithful inspector.disk) :
    (inspector.check cache source { link with url := '#' :: anchor }).result =
      (inspector.checkAnchor source { link with url := '#' :: anchor } .empty source
        ('#' :: anchor) "Anchor not found in current file".toList none [] []).result := by
  rw [(check_sameAs faithful rootAbsolute tidy _).result]
  simp only [check, Url.target_hash]
  rfl

theorem check_ofName {outer : List Name} (rootAbsolute : inspector.root.isAbsolute = true)
    (written : source = .ofNames (outer ++ [name])) (isText : Utf8.IsText name.bytes)
    (settled : inspector.disk.canonical source = .ok source)
    (isDocument : Search.isDocument inspector.disk inspector.settings source = true)
    (faithful : cache.Faithful inspector.disk) :
    (inspector.check cache source { link with url := Url.ofName name anchor }).result =
      (inspector.checkAnchor source { link with url := Url.ofName name anchor } .empty source
        ('#' :: anchor) ("Anchor ".toList ++ '#' :: anchor ++ " not found in target file".toList)
        (some source) [] []).result := by
  subst written
  rcases isText with ⟨path, inUtf8⟩
  have pathNe : path ≠ [] := by
    rintro rfl
    exact name.bytes_ne_nil inUtf8
  rw [(check_sameAs faithful rootAbsolute (Path.isTidy_ofNames _) _).result]
  simp only [check, Url.target_ofName pathNe inUtf8]
  rw [checkFile_eq_checkAnchor pathNe (targetPath_ownName settled inUtf8) isDocument]

/-- A link of a document to a heading of its own is sound with the name of the document exactly if
it is sound without.  Otherwise the same heading is missing and the same slugs are there, and only
the link with the name says where. -/
theorem check_ownName {disk : Disk} {settings : Settings} {given root : Path}
    {probe : Option Probe} (readable : disk.Readable)
    (canonical : canonicalRoot disk given = .ok root)
    (document : source ∈ Search.documents disk settings root)
    (settled : disk.canonical source = .ok source) (named : source.fileName? = some name)
    (isText : Utf8.IsText name.bytes) (faithful : cache.Faithful disk)
    (otherFaithful : other.Faithful disk) :
    (Document.HasHeading disk source ('#' :: anchor) ∧
      (check ⟨disk, settings, root, probe⟩ cache source
        { link with url := '#' :: anchor }).result = .ok .sound ∧
      (check ⟨disk, settings, root, probe⟩ other source
        { link with url := Url.ofName name anchor }).result = .ok .sound) ∨
    (¬ Document.HasHeading disk source ('#' :: anchor) ∧ ∃ available,
      (check ⟨disk, settings, root, probe⟩ cache source
        { link with url := '#' :: anchor }).result =
          .ok { defect := some (defect ⟨disk, settings, root, probe⟩ source
            { link with url := '#' :: anchor } "Anchor not found in current file".toList
            (.missingAnchor available ('#' :: anchor) none)) } ∧
      (check ⟨disk, settings, root, probe⟩ other source
        { link with url := Url.ofName name anchor }).result =
          .ok { defect := some (defect ⟨disk, settings, root, probe⟩ source
            { link with url := Url.ofName name anchor }
            ("Anchor ".toList ++ '#' :: anchor ++ " not found in target file".toList)
            (.missingAnchor available ('#' :: anchor) (some source))) }) := by
  rcases exists_names_of_canonicalRoot canonical with ⟨base, entries, rfl, found⟩
  rcases Search.exists_names_of_mem_documents found document with
    ⟨below, belowNe, sourceNames, isDocument⟩
  have rootAbsolute := isAbsolute_of_canonicalRoot canonical
  have tidy : source.IsTidy := Search.isTidy_of_canonicalRoot canonical document
  have isFile : disk.isFile source = true := (Bool.and_eq_true_iff.1 isDocument).2
  rcases below.eq_nil_or_concat with rfl | ⟨outer, last, rfl⟩
  · exact absurd rfl belowNe
  rw [List.concat_eq_append, ← List.append_assoc] at sourceNames
  rw [sourceNames, Path.fileName?_ofNames] at named
  cases named
  rw [@check_hash ⟨disk, settings, .ofNames base, probe⟩ _ _ _ _ rootAbsolute tidy faithful,
    @check_ofName ⟨disk, settings, .ofNames base, probe⟩ _ _ _ _ _ _ rootAbsolute sourceNames
      isText settled isDocument otherFaithful]
  rcases @checkAnchor_of_isFile ⟨disk, settings, .ofNames base, probe⟩ source _ readable isFile
    ('#' :: anchor) with ⟨hasHeading, sound⟩ | ⟨noHeading, available, missing⟩
  · exact .inl ⟨hasHeading, sound _ _ _, sound _ _ _⟩
  · exact .inr ⟨noHeading, available, missing _ _ _, missing _ _ _⟩

/-- The heading is missing, and what asks for it looks like a scheme, a fragment and an escape. -/
theorem check_ownName_sample :
    Disk.sample.Readable ∧
      canonicalRoot .sample (.ofText "/r/d/..".toList) = .ok (.ofText "/r".toList) ∧
      .ofText "/r/d/c d.md".toList ∈
        Search.documents .sample .default (.ofText "/r".toList) ∧
      Disk.sample.canonical (.ofText "/r/d/c d.md".toList) =
        .ok (.ofText "/r/d/c d.md".toList) ∧
      AnchorCache.empty.Faithful .sample ∧
      ∃ name, (Path.ofText "/r/d/c d.md".toList).fileName? = some name ∧
        Utf8.IsText name.bytes ∧ Url.ofName name "c:#%63".toList = "c%20d.md#c:#%63".toList ∧
        ((Document.HasHeading .sample (.ofText "/r/d/c d.md".toList) "#c:#%63".toList ∧
          (check ⟨.sample, .default, .ofText "/r".toList, none⟩ .empty
            (.ofText "/r/d/c d.md".toList) ⟨1, "x".toList, "#c:#%63".toList⟩).result =
              .ok .sound ∧
          (check ⟨.sample, .default, .ofText "/r".toList, none⟩ .empty
            (.ofText "/r/d/c d.md".toList)
            ⟨1, "x".toList, Url.ofName name "c:#%63".toList⟩).result = .ok .sound) ∨
        (¬ Document.HasHeading .sample (.ofText "/r/d/c d.md".toList) "#c:#%63".toList ∧
          ∃ available,
            (check ⟨.sample, .default, .ofText "/r".toList, none⟩ .empty
              (.ofText "/r/d/c d.md".toList) ⟨1, "x".toList, "#c:#%63".toList⟩).result =
                .ok { defect := some (defect ⟨.sample, .default, .ofText "/r".toList, none⟩
                  (.ofText "/r/d/c d.md".toList) ⟨1, "x".toList, "#c:#%63".toList⟩
                  "Anchor not found in current file".toList
                  (.missingAnchor available "#c:#%63".toList none)) } ∧
            (check ⟨.sample, .default, .ofText "/r".toList, none⟩ .empty
              (.ofText "/r/d/c d.md".toList)
              ⟨1, "x".toList, Url.ofName name "c:#%63".toList⟩).result =
                .ok { defect := some (defect ⟨.sample, .default, .ofText "/r".toList, none⟩
                  (.ofText "/r/d/c d.md".toList)
                  ⟨1, "x".toList, Url.ofName name "c:#%63".toList⟩
                  "Anchor #c:#%63 not found in target file".toList
                  (.missingAnchor available "#c:#%63".toList
                    (some (.ofText "/r/d/c d.md".toList)))) })) := by
  have document : .ofText "/r/d/c d.md".toList ∈
      Search.documents .sample .default (.ofText "/r".toList) := by
    rw [Disk.documents_sample]
    decide
  have settled : Disk.sample.canonical (.ofText "/r/d/c d.md".toList) =
      .ok (.ofText "/r/d/c d.md".toList) := by
    rfl
  have named : (Path.ofText "/r/d/c d.md".toList).fileName? =
      some ⟨Utf8.encode "c d.md".toList, by decide⟩ := by
    decide
  have faithful : AnchorCache.empty.Faithful .sample := AnchorCache.faithful_empty .sample
  have readable : Disk.sample.Readable := by decide
  exact ⟨readable, Disk.canonicalRoot_sample, document, settled, faithful, _, named,
    ⟨"c d.md".toList, rfl⟩, by decide,
    @check_ownName _ _ .empty .empty ⟨1, "x".toList, []⟩ "c:#%63".toList _ _ _ _ none
      readable Disk.canonicalRoot_sample document settled named ⟨"c d.md".toList, rfl⟩ faithful
      faithful⟩

end Inspector

end MarkdownLinks
