import MarkdownLinks.Proofs.Disk.Placed
import MarkdownLinks.Proofs.Search.Documents
import MarkdownLinks.Proofs.Text.Decoding

/-!
# Which files are documents

The search finds a file exactly if it is reached from the root through directories, none of its
names below the root is left out, and its name is that of a document.  A link can be a document, if
a file is where it leads, but the search goes through no link to a directory.
-/

namespace MarkdownLinks

theorem Settings.excludesName_eq_false_iff {settings : Settings} {name : Name} :
    settings.excludesName name = false ↔
      ∀ text ∈ settings.exclude, name.bytes ≠ Utf8.encode text := by
  have excluded : settings.excludesName name = true ↔
      ∃ text ∈ settings.exclude, name.bytes = Utf8.encode text := by
    simp only [excludesName, excludes, Option.any_eq_true, decide_eq_true_iff,
      Utf8.decode?_eq_some_iff]
    exact exists_congr fun text => and_comm
  rw [← Bool.not_eq_true, excluded]
  simp only [not_exists, not_and, ne_eq]

namespace Disk

variable {disk : Disk} {names outer : List Name}

/-- Whether names lead to a directory itself, and not through a link. -/
def IsDirectoryAt (disk : Disk) (names : List Name) : Prop :=
  ∃ entries, disk.at? names = some (.directory entries)

theorem isDirectoryAt_of_at?_append {more : List Name} {entry : Entry}
    (found : disk.at? (names ++ more) = some entry) (nonempty : more ≠ []) :
    disk.IsDirectoryAt names :=
  Listing.exists_directory_of_at?_append found nonempty

/-- What is found at an entry of a directory, be it through a link, is in its listing. -/
theorem exists_at?_of_entry {last : Name} {entry : Entry} (above : disk.IsDirectoryAt outer)
    (found : disk.entry (.ofNames (outer ++ [last])) = .ok entry) :
    ∃ listed, disk.at? (outer ++ [last]) = some listed := by
  rcases above with ⟨entries, above⟩
  rcases at?_of_entry found with ⟨others, located, -⟩
  have noZero : ∀ name ∈ outer ++ [last], (0 : UInt8) ∉ name.bytes :=
    holdsZero_ofNames.1 (locate_eq_resolve located).1
  have outerNoZero : ∀ name ∈ outer, (0 : UInt8) ∉ name.bytes :=
    (List.forall_mem_append.1 noZero).1
  have lastNoZero : (0 : UInt8) ∉ last.bytes := noZero last (by simp)
  rcases exists_locate_under (Listing.reaches_of_directory above) outerNoZero with
    ⟨follow, locates⟩
  rw [Path.ofNames_append, List.map_singleton,
    locates [.name last] (Component.isStep_names [last]) (List.forall_mem_singleton.2 lastNoZero),
    List.map_singleton, Component.move] at located
  have listing : disk.root.at? outer = some (.directory entries) := above
  simp only [Listing.travel, listing] at located
  cases inside : entries.find? last with
  | none =>
    rw [inside] at located
    cases located
  | some listed =>
    refine ⟨listed, ?_⟩
    rw [Disk.at?, Listing.at?_append listing, Listing.at?_singleton, inside]

end Disk

namespace Search

/-- Whether names lead from a directory to a document: through directories and no link, by names
none of which is left out, to a file with the extension of documents. -/
structure LeadsToDocument (disk : Disk) (settings : Settings) (base names : List Name) : Prop where
  nonempty : names ≠ []
  throughDirectories : ∀ count < names.length, disk.IsDirectoryAt (base ++ names.take count)
  notLeftOut : ∀ name ∈ names, ∀ text ∈ settings.exclude, name.bytes ≠ Utf8.encode text
  extension : (Path.ofNames (base ++ names)).extension? = some (Utf8.encode settings.extension)
  isFile : ∃ content, disk.entry (.ofNames (base ++ names)) = .ok (.file content)

variable {disk : Disk} {settings : Settings} {given root : Path} {base names : List Name}
  {tree : Listing}

theorem leadsToDocument_iff (reached : disk.at? base = some (.directory tree)) :
    LeadsToDocument disk settings base names ↔
      isDocument disk settings (.ofNames (base ++ names)) = true ∧
        names ∈ namesBelow settings tree := by
  have distinct : tree.Distinct := disk.distinct.at? reached
  rw [isDocument, Bool.and_eq_true, Disk.isFile_iff, Settings.isDocumentName, beq_iff_eq,
    mem_namesBelow_iff distinct]
  constructor
  · rintro ⟨nonempty, directories, kept, extension, content, isFile⟩
    refine ⟨⟨extension, content, isFile⟩, nonempty, ?_, ?_⟩
    · rcases names.eq_nil_or_concat with rfl | ⟨outer, last, rfl⟩
      · exact absurd rfl nonempty
      · rw [List.concat_eq_append, ← List.append_assoc] at isFile
        have above := directories outer.length (by simp)
        rw [List.concat_eq_append, List.take_left] at above
        rcases Disk.exists_at?_of_entry above isFile with ⟨listed, atNames⟩
        rw [List.append_assoc, Disk.at?, Listing.at?_append reached] at atNames
        rw [List.concat_eq_append, atNames]
        rfl
    · intro name mem
      exact Settings.excludesName_eq_false_iff.2 (kept name mem)
  · rintro ⟨⟨extension, isFile⟩, nonempty, listed, kept⟩
    refine ⟨nonempty, ?_, ?_, extension, isFile⟩
    · intro count within
      rcases Option.isSome_iff_exists.1 listed with ⟨entry, atNames⟩
      have whole : disk.at? (base ++ names.take count ++ names.drop count) = some entry := by
        rw [List.append_assoc, List.take_append_drop, Disk.at?, Listing.at?_append reached]
        exact atNames
      apply Disk.isDirectoryAt_of_at?_append whole
      simpa using within
    · intro name mem
      exact Settings.excludesName_eq_false_iff.1 (kept name mem)

/-- The documents below a canonical root come in strictly ascending order of their components, and
they are just the files that names lead to as documents. -/
theorem documents_exact (canonical : canonicalRoot disk given = .ok root) (settings : Settings) :
    ∃ base, root = .ofNames base ∧
      (documents disk settings root).Pairwise (fun p q => p.key < q.key) ∧
      ∀ p, p ∈ documents disk settings root ↔
        ∃ names, p = .ofNames (base ++ names) ∧ LeadsToDocument disk settings base names := by
  rcases Disk.exists_directory_of_canonicalRoot canonical with
    ⟨base, tree, rfl, reached, noZero, short⟩
  have found := Disk.entry_ofNames reached noZero short
  refine ⟨base, rfl, ?_, ?_⟩
  · apply (pairwise_documents found).imp
    intro p q notLe
    apply List.not_le.1
    intro le
    rw [Path.le_iff.2 le] at notLe
    cases notLe
  · intro p
    rw [mem_documents_iff found]
    constructor
    · rintro ⟨isDocument, names, mem, rfl⟩
      exact ⟨names, rfl, (leadsToDocument_iff reached).2 ⟨isDocument, mem⟩⟩
    · rintro ⟨names, rfl, leads⟩
      rcases (leadsToDocument_iff reached).1 leads with ⟨isDocument, mem⟩
      exact ⟨isDocument, names, mem, rfl⟩

/-- A disk with links of all kinds: one to a document in a directory whose name is that of a
document, one to nothing, and one to the directory that it is in. -/
def sampleDisk : Disk where
  root :=
    .directory ⟨Utf8.encode "r".toList, Eq.refl true⟩
      (.directory ⟨Utf8.encode ".git".toList, by decide⟩
        (.file ⟨Utf8.encode "left.md".toList, by decide⟩ (.bytes []) .empty)
        (.directory ⟨Utf8.encode "odd.md".toList, by decide⟩
          (.file ⟨Utf8.encode "in.md".toList, by decide⟩ (.bytes []) .empty)
          (.link ⟨Utf8.encode "to.md".toList, by decide⟩ (.ofText "odd.md/in.md".toList)
            (.link ⟨Utf8.encode "gone.md".toList, by decide⟩ (.ofText "nowhere".toList)
              (.link ⟨Utf8.encode "loop".toList, by decide⟩ (.ofText ".".toList) .empty)))))
      .empty
  distinct := by
    simp [Listing.Distinct, Listing.names]
    decide
  cwd := []

theorem documents_exact_sample :
    canonicalRoot sampleDisk (.ofText "/r/loop/loop".toList) = .ok (.ofText "/r".toList) ∧
      documents sampleDisk .default (.ofText "/r".toList) =
        [.ofText "/r/odd.md/in.md".toList, .ofText "/r/to.md".toList] ∧
      ∃ base, Path.ofText "/r".toList = .ofNames base ∧
        (documents sampleDisk .default (.ofText "/r".toList)).Pairwise
          (fun p q => p.key < q.key) ∧
        ∀ p, p ∈ documents sampleDisk .default (.ofText "/r".toList) ↔
          ∃ names, p = .ofNames (base ++ names) ∧
            LeadsToDocument sampleDisk .default base names := by
  have canonical : canonicalRoot sampleDisk (.ofText "/r/loop/loop".toList) =
      .ok (.ofText "/r".toList) := by
    rfl
  have found : (visited sampleDisk .default (.ofText "/r".toList)).filter
      (isDocument sampleDisk .default) =
        [.ofText "/r/odd.md/in.md".toList, .ofText "/r/to.md".toList] := by
    rfl
  refine ⟨canonical, ?_, documents_exact canonical .default⟩
  rw [documents, found]
  exact List.mergeSort_of_pairwise (by decide)

end Search

end MarkdownLinks
