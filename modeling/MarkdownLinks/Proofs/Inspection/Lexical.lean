import Mathlib.Data.List.Basic
import MarkdownLinks.Proofs.Inspection.Stated
import MarkdownLinks.Proofs.Path.Ending
import MarkdownLinks.Proofs.Root

/-!
# Meant paths by the names alone

On a disk without links, a link means the path that it states, normalized: the way through the
directories and the stack of names arrive at the same place wherever the first arrives.  So a slash
after a link to a file does not change what it means, and neither does a slash before it in a
document that lies in the root, unless the link goes up.
-/

namespace MarkdownLinks

namespace Move

/-- Moves that do not go up only add the names that they go into. -/
theorem map_name_lexical {moves : List Move} (noUp : .up ∉ moves) (start : List Name) :
    (lexical start moves).map Component.name =
      start.map Component.name ++ moves.filterMap Component.ofMove? := by
  induction moves generalizing start with
  | nil => simp [lexical]
  | cons move rest ih =>
    rw [List.mem_cons, not_or] at noUp
    cases move with
    | stay => exact ih noUp.2 start
    | up => exact absurd rfl noUp.1
    | into name => simp [lexical, ih noUp.2, Component.ofMove?]

end Move

namespace Path

variable {p : Path}

theorem up_not_mem_moves (noParent : .parent ∉ p.components) : .up ∉ p.moves := by
  intro mem
  have given : .parent ∈ p.moves.filterMap Component.ofMove? :=
    List.mem_filterMap.2 ⟨.up, mem, rfl⟩
  apply noParent
  cases absolute : p.isAbsolute with
  | true =>
    rw [components_of_isAbsolute absolute]
    exact List.mem_cons_of_mem _ given
  | false =>
    rw [components_of_relative absolute]
    exact List.mem_append_right _ given

/-- Nothing is resolved where a path does not go up. -/
theorem normalize_eq_ofComponents (absolute : p.isAbsolute = true) (noUp : .up ∉ p.moves) :
    p.normalize = ofComponents p.components := by
  rw [normalize_of_isAbsolute absolute, components_of_isAbsolute absolute, ofNames,
    Move.map_name_lexical noUp, List.map_nil, List.nil_append]

end Path

namespace Inspector

variable {inspector : Inspector} {source : Path} {file : Text}

/-- A link that is not rooted means the path that it states, normalized, whether this exists or
not; on an absolute path, being made canonical is being normalized, if it is possible at all. -/
theorem targetPath_eq_normalize {directory : Path} (linkFree : inspector.disk.LinkFree)
    (absolute : source.isAbsolute = true) (parent : source.parent? = some directory)
    (notRooted : file.head? ≠ some '/') :
    inspector.targetPath source file = (directory.join (.ofText file)).normalize ∧
      ∀ p q : Path, p.isAbsolute = true → inspector.disk.canonical p = .ok q →
        q = p.normalize := by
  have stated : inspector.statedPath source file = directory.join (.ofText file) := by
    rw [statedPath_of_notRooted notRooted, parent, Option.getD_some]
  have statedAbsolute : (directory.join (.ofText file)).isAbsolute = true :=
    Path.isAbsolute_join (Path.isAbsolute_of_parent? absolute parent)
  constructor
  · rw [targetPath_of_settled, if_neg notRooted, stated]
    intro path canonical
    rw [stated] at canonical ⊢
    exact linkFree.canonical_eq statedAbsolute canonical
  · intro p q pAbsolute canonical
    exact linkFree.canonical_eq pAbsolute canonical

/-- A file stands where a directory would have to be, so that the way cannot be followed. -/
theorem targetPath_eq_normalize_sample :
    Disk.sample.LinkFree ∧ (Path.ofText "/r/d/../d/c d.md".toList).isAbsolute = true ∧
      (Path.ofText "/r/d/../d/c d.md".toList).parent? = some (.ofText "/r/d/../d".toList) ∧
      "../index.md/.././d//x/../c d.md/".toList.head? ≠ some '/' ∧
      targetPath ⟨.sample, .default, .ofText "/r".toList, none⟩
          (.ofText "/r/d/../d/c d.md".toList) "../index.md/.././d//x/../c d.md/".toList =
        ((Path.ofText "/r/d/../d".toList).join
          (.ofText "../index.md/.././d//x/../c d.md/".toList)).normalize ∧
      ∀ p q : Path, p.isAbsolute = true → Disk.sample.canonical p = .ok q → q = p.normalize := by
  have linkFree : Disk.sample.LinkFree := by decide
  have absolute : (Path.ofText "/r/d/../d/c d.md".toList).isAbsolute = true := by decide
  have parent : (Path.ofText "/r/d/../d/c d.md".toList).parent? =
      some (.ofText "/r/d/../d".toList) := by
    decide
  have notRooted : "../index.md/.././d//x/../c d.md/".toList.head? ≠ some '/' := by decide
  exact ⟨linkFree, absolute, parent, notRooted,
    @targetPath_eq_normalize ⟨.sample, .default, .ofText "/r".toList, none⟩ _ _ _ linkFree absolute
      parent notRooted⟩

section SlashBefore

variable {base : List Name} (root : inspector.root = .ofNames base)
  (inRoot : source.parent? = some inspector.root)

include inRoot

/-- In a document that lies in the root, slashes before a link make no difference to what it
states. -/
theorem statedPath_of_inRoot (file : Text) :
    inspector.statedPath source file =
      inspector.root.join (.ofText (file.dropWhile (· == '/'))) := by
  by_cases rooted : file.head? = some '/'
  · rcases List.head?_eq_some_iff.1 rooted with ⟨rest, rfl⟩
    rfl
  · rw [statedPath_of_notRooted rooted, inRoot, dropWhile_slash_of_notRooted rooted,
      Option.getD_some]

include root

theorem targetPath_cons_slash (linkFree : inspector.disk.LinkFree)
    (noParent : .parent ∉ (Path.ofText file).components) :
    inspector.targetPath source ('/' :: file) = inspector.targetPath source file := by
  have same : inspector.statedPath source ('/' :: file) = inspector.statedPath source file := by
    rw [statedPath_of_inRoot inRoot, statedPath_of_inRoot inRoot file,
      List.dropWhile_cons_of_pos (by simp)]
  have stated : (inspector.statedPath source file).isAbsolute = true := by
    rw [statedPath_of_inRoot inRoot, root]
    exact Path.isAbsolute_join (Path.isTidy_ofNames base).isAbsolute
  have settled : ∀ path, inspector.disk.canonical (inspector.statedPath source file) = .ok path →
      path = (inspector.statedPath source file).normalize :=
    fun path canonical => linkFree.canonical_eq stated canonical
  rw [targetPath_of_settled settled, targetPath_of_settled (same ▸ settled), same,
    if_pos (by rfl)]
  split
  · rfl
  · next notRooted =>
    have noUp : .up ∉ (inspector.statedPath source file).moves := by
      have relative : (Path.ofText file).isAbsolute = false := by
        simpa using mt Path.isAbsolute_ofText_iff.1 notRooted
      rw [statedPath_of_notRooted notRooted, inRoot, root, Option.getD_some,
        Path.moves_join_ofNames base relative]
      simp [Path.up_not_mem_moves noParent]
    rw [Path.normalize_eq_ofComponents stated noUp]

end SlashBefore

section SlashAfter

theorem statedPath_append_slash (fileNe : file ≠ []) :
    inspector.statedPath source (file ++ ['/']) = inspector.statedPath source file ∨
      inspector.statedPath source (file ++ ['/']) =
        (inspector.statedPath source file).append ['/'] := by
  by_cases rooted : file.head? = some '/'
  · rcases List.head?_eq_some_iff.1 rooted with ⟨rest, rfl⟩
    have stated : ∀ rest, inspector.statedPath source ('/' :: rest) =
        inspector.root.join (.ofText (rest.dropWhile (· == '/'))) := fun _ => rfl
    rw [List.cons_append, stated, stated, List.dropWhile_append]
    split
    · next allSlashes =>
      left
      rw [List.isEmpty_iff.1 allSlashes]
      rfl
    · next more =>
      right
      have bytesNe : (Path.ofText (rest.dropWhile (· == '/'))).bytes ≠ [] :=
        Utf8.encode_ne_nil (by simpa using more)
      rw [Path.ofText_append, Path.join_append _ bytesNe]
  · right
    have longerNotRooted : (file ++ ['/']).head? ≠ some '/' := by
      rw [List.head?_append_of_ne_nil _ fileNe]
      exact rooted
    have bytesNe : (Path.ofText file).bytes ≠ [] := Utf8.encode_ne_nil fileNe
    rw [statedPath_of_notRooted rooted, statedPath_of_notRooted longerNotRooted,
      Path.ofText_append, Path.join_append _ bytesNe]

theorem targetPath_append_slash (linkFree : inspector.disk.LinkFree)
    (rootAbsolute : inspector.root.isAbsolute = true) (sourceAbsolute : source.isAbsolute = true)
    (fileNe : file ≠ []) :
    inspector.targetPath source (file ++ ['/']) = inspector.targetPath source file := by
  have stated := isAbsolute_statedPath rootAbsolute sourceAbsolute file
  rw [targetPath_of_linkFree linkFree rootAbsolute sourceAbsolute,
    targetPath_of_linkFree linkFree rootAbsolute sourceAbsolute,
    List.head?_append_of_ne_nil _ fileNe]
  rcases @statedPath_append_slash inspector source file fileNe with same | longer
  · rw [same]
  · rw [longer, Path.components_append_slash stated, Path.normalize_append_slash stated]

end SlashAfter

end Inspector

end MarkdownLinks
