import MarkdownLinks.Proofs.Disk.Canonical
import MarkdownLinks.Validation

/-!
# The canonical root

A root that was made canonical is the path of a list of names, and a directory is there.
-/

namespace MarkdownLinks

variable {disk : Disk} {given root : Path}

theorem canonicalRoot_eq_ok (canonical : canonicalRoot disk given = .ok root) :
    disk.canonical given = .ok root ∧ disk.isDirectory root = true := by
  rw [canonicalRoot] at canonical
  split at canonical
  · next path made =>
    split at canonical
    · next isDirectory =>
      cases canonical
      exact ⟨made, isDirectory⟩
    · cases canonical
  · cases canonical

theorem canonicalRoot_eq_error {failure : Failure}
    (refused : canonicalRoot disk given = .error failure) : failure = .noRoot given := by
  rw [canonicalRoot] at refused
  split at refused
  · split at refused
    · cases refused
    · exact (Except.error.inj refused).symm
  · exact (Except.error.inj refused).symm

theorem exists_names_of_canonicalRoot (canonical : canonicalRoot disk given = .ok root) :
    ∃ base entries, root = .ofNames base ∧
      disk.entry (.ofNames base) = .ok (.directory entries) := by
  rcases canonicalRoot_eq_ok canonical with ⟨made, isDirectory⟩
  rcases Disk.exists_names_of_canonical made with ⟨base, -, rfl⟩
  rcases Disk.exists_of_isDirectory isDirectory with ⟨entries, found⟩
  exact ⟨base, entries, rfl, found⟩

theorem isAbsolute_of_canonicalRoot (canonical : canonicalRoot disk given = .ok root) :
    root.isAbsolute = true := by
  rcases exists_names_of_canonicalRoot canonical with ⟨base, -, rfl, -⟩
  exact (Path.isTidy_ofNames base).isAbsolute

namespace Disk

/-- A disk with a directory of two documents, one of them in a directory of its own. -/
def sample : Disk where
  root :=
    .directory ⟨Utf8.encode "r".toList, by decide⟩
      (.directory ⟨Utf8.encode "d".toList, by decide⟩
        (.file ⟨Utf8.encode "c d.md".toList, by decide⟩ (.bytes (Utf8.encode "# C\n".toList)) .empty)
        (.file ⟨Utf8.encode "index.md".toList, by decide⟩
          (.bytes (Utf8.encode "[x](d/c%20d.md)\n[y](z)\n".toList)) .empty))
      .empty
  distinct := by
    simp [Listing.Distinct, Listing.names]
    decide
  cwd := []

theorem canonicalRoot_sample :
    canonicalRoot sample (.ofText "/r/d/..".toList) = .ok (.ofText "/r".toList) := by
  rfl

theorem documents_sample :
    Search.documents sample .default (.ofText "/r".toList) =
      [.ofText "/r/d/c d.md".toList, .ofText "/r/index.md".toList] := by
  have found : (Search.visited sample .default (.ofText "/r".toList)).filter
      (Search.isDocument sample .default) =
        [.ofText "/r/d/c d.md".toList, .ofText "/r/index.md".toList] := by
    rfl
  rw [Search.documents, found]
  exact List.mergeSort_of_pairwise (by decide)

end Disk

end MarkdownLinks
