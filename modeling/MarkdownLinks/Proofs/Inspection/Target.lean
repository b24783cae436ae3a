import MarkdownLinks.Inspection.Link
import MarkdownLinks.Proofs.Disk.Canonical
import MarkdownLinks.Proofs.Path.Ending

/-!
# What a link to a file leads to

The path that a link means is tidy however the link is written, and it is reached as it is or, if
nothing is there, with the extension of documents after it.
-/

namespace MarkdownLinks

namespace Inspector

variable {inspector : Inspector} {source target reached : Path}

theorem reach_eq_plain_iff :
    inspector.reach target = .plain reached ↔
      reached = target ∧ inspector.disk.contains target = true := by
  rw [reach]
  split
  · next contained => simp [contained, eq_comm]
  · next absent =>
    simp only
    split <;> simp [absent]

theorem reach_eq_extended_iff :
    inspector.reach target = .extended reached ↔
      reached = target.append inspector.settings.dottedExtension ∧
        inspector.disk.contains target = false ∧
        inspector.settings.endsAsDocument target = false ∧
        inspector.disk.contains (target.append inspector.settings.dottedExtension) = true := by
  rw [reach]
  split
  · next contained => simp [contained]
  · next absent =>
    simp only
    split
    · next nothing =>
      constructor
      · intro impossible
        cases impossible
      · rintro ⟨-, -, notDocument, there⟩
        simp [notDocument, there] at nothing
    · next found =>
      simp only [Bool.or_eq_true, Bool.not_eq_true', not_or, Bool.not_eq_true,
        Bool.not_eq_false] at found absent
      simp [absent, found, eq_comm]

/-- Only files have headings, so that no advice about directories goes along with a fragment. -/
theorem directoryAdvice_eq_nil_of_hasAnchors {link : Link}
    (hasAnchors : inspector.hasAnchors target = true) :
    inspector.directoryAdvice source link target = [] := by
  have isFile : inspector.disk.isFile target = true := (Bool.and_eq_true_iff.1 hasAnchors).1
  simp [directoryAdvice, Disk.not_isDirectory_of_isFile isFile]

theorem dropWhile_slash_of_notRooted {file : Text} (notRooted : file.head? ≠ some '/') :
    file.dropWhile (· == '/') = file := by
  cases file with
  | nil => rfl
  | cons c rest =>
    apply List.dropWhile_cons_of_neg
    simpa using notRooted

theorem statedPath_of_notRooted {file : Text} (notRooted : file.head? ≠ some '/') :
    inspector.statedPath source file =
      (source.parent?.getD inspector.root).join (.ofText file) := by
  unfold statedPath
  split
  · exact absurd rfl notRooted
  · rfl

theorem isAbsolute_statedPath (rootAbsolute : inspector.root.isAbsolute = true)
    (sourceAbsolute : source.isAbsolute = true) (file : Text) :
    (inspector.statedPath source file).isAbsolute = true := by
  unfold statedPath
  split
  · exact Path.isAbsolute_join rootAbsolute
  · apply Path.isAbsolute_join
    cases found : source.parent? with
    | none => exact rootAbsolute
    | some parent => exact Path.isAbsolute_of_parent? sourceAbsolute found

/-- The disk does not matter for the path that a link means if making the stated path canonical only
normalizes it. -/
theorem targetPath_of_settled {file : Text}
    (settled : ∀ path, inspector.disk.canonical (inspector.statedPath source file) = .ok path →
      path = (inspector.statedPath source file).normalize) :
    inspector.targetPath source file =
      if file.head? = some '/' then .ofComponents (inspector.statedPath source file).components
      else (inspector.statedPath source file).normalize := by
  simp only [targetPath]
  split
  · rfl
  · split
    · next path canonical => exact settled path canonical
    · rfl

theorem targetPath_of_linkFree (linkFree : inspector.disk.LinkFree)
    (rootAbsolute : inspector.root.isAbsolute = true) (sourceAbsolute : source.isAbsolute = true)
    (file : Text) :
    inspector.targetPath source file =
      if file.head? = some '/' then .ofComponents (inspector.statedPath source file).components
      else (inspector.statedPath source file).normalize := by
  apply targetPath_of_settled
  intro path canonical
  exact linkFree.canonical_eq (isAbsolute_statedPath rootAbsolute sourceAbsolute file) canonical

theorem isTidy_targetPath (rootAbsolute : inspector.root.isAbsolute = true)
    (sourceAbsolute : source.isAbsolute = true) (file : Text) :
    (inspector.targetPath source file).IsTidy := by
  have stated := isAbsolute_statedPath rootAbsolute sourceAbsolute file
  simp only [targetPath]
  split
  · exact Path.isTidy_ofComponents_components stated
  · split
    · next path canonical =>
      rcases Disk.exists_names_of_canonical canonical with ⟨names, -, rfl⟩
      exact Path.isTidy_ofNames names
    · simp only [Path.normalize_of_isAbsolute stated]
      exact Path.isTidy_ofNames _

/-- A path with the extension of documents after it is tidy where its slugs are asked for. -/
theorem isTidy_append_of_hasAnchors {target : Path} (tidy : target.IsTidy)
    (asked : inspector.hasAnchors (target.append inspector.settings.dottedExtension) = true) :
    (target.append inspector.settings.dottedExtension).IsTidy := by
  simp only [hasAnchors, Bool.and_eq_true, Settings.isDocumentName, beq_iff_eq] at asked
  exact tidy.append_dotted asked.2

end Inspector

end MarkdownLinks
