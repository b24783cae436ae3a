import MarkdownLinks.Proofs.Inspection.Relocation
import MarkdownLinks.Proofs.Search.Documents

/-!
# Documents below one root and another

The documents below a root are told by the names that lead to them from the root.  A tree has the
same ones, in the same order, wherever it is placed.
-/

namespace MarkdownLinks

namespace Search

variable {disk other : Disk} {settings : Settings} {base otherBase : List Name} {entries : Listing}

/-- The names that lead from a root to the documents below it, in the order of the documents. -/
def documentNames (disk : Disk) (settings : Settings) (base : List Name) (entries : Listing) :
    List (List Name) :=
  ((namesBelow settings entries).filter fun names =>
    isDocument disk settings (.ofNames (base ++ names))).mergeSort fun names others =>
      (Path.below names).le (.below others)

theorem visited_ofNames (root : disk.entry (.ofNames base) = .ok (.directory entries)) :
    visited disk settings (.ofNames base) =
      .ofNames base ::
        (namesBelow settings entries).map fun names => .ofNames (base ++ names) := by
  rw [visited, root]
  exact congrArg _ (below_ofNames settings base entries)

theorem mem_visited {names : List Name}
    (root : disk.entry (.ofNames base) = .ok (.directory entries))
    (mem : names ∈ namesBelow settings entries) :
    .ofNames (base ++ names) ∈ visited disk settings (.ofNames base) := by
  rw [visited_ofNames root]
  exact List.mem_cons_of_mem _ (List.mem_map_of_mem mem)

theorem documents_eq_map (root : disk.entry (.ofNames base) = .ok (.directory entries)) :
    documents disk settings (.ofNames base) =
      (documentNames disk settings base entries).map fun names => .ofNames (base ++ names) := by
  have rootIsNone : isDocument disk settings (.ofNames base) = false := by
    simp [isDocument, Disk.isFile, root]
  have sorted := @List.map_mergeSort _ _ (fun names others => (Path.below names).le (.below others))
    Path.le (fun names => Path.ofNames (base ++ names))
    ((namesBelow settings entries).filter fun names =>
      isDocument disk settings (.ofNames (base ++ names)))
    (fun names _ others _ => (Path.le_ofNames_append base names others).symm)
  rw [documentNames, sorted, documents, visited_ofNames root]
  simp only [List.filter_cons, rootIsNone, Bool.false_eq_true, if_false, List.filter_map]
  rfl

theorem documentNames_eq (alike : ∀ names ∈ namesBelow settings entries,
    isDocument disk settings (.ofNames (base ++ names)) =
      isDocument other settings (.ofNames (otherBase ++ names))) :
    documentNames disk settings base entries = documentNames other settings otherBase entries := by
  rw [documentNames, documentNames, List.filter_congr alike]

theorem mem_documentNames_iff {names : List Name} :
    names ∈ documentNames disk settings base entries ↔
      names ∈ namesBelow settings entries ∧
        isDocument disk settings (.ofNames (base ++ names)) = true := by
  rw [documentNames, List.mem_mergeSort, List.mem_filter]

end Search

namespace Inspector

variable {inspector other : Inspector} {base otherBase : List Name} {tree : Listing}

/-- Names lead to a document below one root exactly if they do below the other. -/
theorem Relocates.isDocument_eq (relocates : Relocates inspector other base otherBase tree)
    {names : List Name} (nonempty : names ≠ [])
    (fits : inspector.settings.isDocumentName (.ofNames (base ++ names)) = true →
      Disk.FitsAlike inspector.root other.root (.ofNames (base ++ names))) :
    Search.isDocument inspector.disk inspector.settings (.ofNames (base ++ names)) =
      Search.isDocument other.disk inspector.settings (.ofNames (otherBase ++ names)) := by
  have areSteps := Component.isStep_names names
  have sameName : inspector.settings.isDocumentName (.under base (names.map .name)) =
      inspector.settings.isDocumentName (.under otherBase (names.map .name)) := by
    rcases names.eq_nil_or_concat with rfl | ⟨outer, last, rfl⟩
    · exact absurd rfl nonempty
    · rw [List.concat_eq_append, List.map_append] at areSteps ⊢
      exact Settings.isDocumentName_under base otherBase areSteps
  rw [Path.ofNames_append] at fits
  rw [Path.ofNames_append, Path.ofNames_append, Search.isDocument, Search.isDocument, ← sameName]
  cases isName : inspector.settings.isDocumentName (.under base (names.map .name)) with
  | false => rfl
  | true =>
    have corresponds := relocates.corresponds areSteps (Move.staysInside_map_names names)
      (fits isName)
    rw [corresponds.same.isFile_eq]

end Inspector

end MarkdownLinks
