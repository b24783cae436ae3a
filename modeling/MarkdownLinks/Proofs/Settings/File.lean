import MarkdownLinks.Proofs.Text.Decoding
import MarkdownLinks.Settings.File

/-!
# Settings that cannot be used

Without a settings file the defaults are taken.  With one, settings are loaded unless the file cannot
be read, is not UTF-8, or is refused by the reader of settings.
-/

namespace MarkdownLinks

namespace Settings

/-- Whether the settings file in a directory cannot be used: it is there but cannot be read, or it
is not UTF-8, or what it says is refused. -/
def IsUnusable (disk : Disk) (root : Path) : Prop :=
  (∃ cause, cause ≠ .notFound ∧ disk.read (filePath root) = .error cause) ∨
  ∃ bytes, disk.read (filePath root) = .ok bytes ∧
    (¬ Utf8.IsText bytes ∨ ∃ text fault, bytes = Utf8.encode text ∧ read text = .error fault)

variable {disk : Disk} {root : Path}

theorem load_of_notFound (absent : disk.read (filePath root) = .error .notFound) :
    load disk root = .ok default := by
  rw [load, absent]
  rfl

theorem load_of_error {cause : IoError} (present : cause ≠ .notFound)
    (failed : disk.read (filePath root) = .error cause) :
    load disk root = .error (.io cause) := by
  rw [load, failed]
  split
  · next absent => exact absurd (Except.error.inj absent) present
  · next other same => rw [Except.error.inj same]
  · next bytes found => cases found

theorem load_of_not_isText {bytes : Bytes} (found : disk.read (filePath root) = .ok bytes)
    (notText : ¬ Utf8.IsText bytes) : load disk root = .error (.io .notText) := by
  simp only [load, found, Utf8.decode?_eq_none_iff.2 notText]

theorem load_of_text {text : Text} (found : disk.read (filePath root) = .ok (Utf8.encode text)) :
    load disk root = (read text).mapError .badSettings := by
  have decoded : Utf8.decode? (Utf8.encode text) = some text := Utf8.decode?_eq_some_iff.2 rfl
  simp only [load, found, decoded]

/-- Settings cannot be loaded exactly if their file cannot be used. -/
theorem exists_load_eq_error_iff :
    (∃ failure, load disk root = .error failure) ↔ IsUnusable disk root := by
  constructor
  · rintro ⟨failure, failed⟩
    cases found : disk.read (filePath root) with
    | error cause =>
      refine .inl ⟨cause, ?_, found⟩
      rintro rfl
      cases (load_of_notFound found).symm.trans failed
    | ok bytes =>
      refine .inr ⟨bytes, found, ?_⟩
      by_cases isText : Utf8.IsText bytes
      · right
        rcases isText with ⟨text, rfl⟩
        rw [load_of_text found] at failed
        cases refused : read text with
        | error fault => exact ⟨text, fault, rfl, refused⟩
        | ok settings =>
          rw [refused] at failed
          cases failed
      · exact .inl isText
  · rintro (⟨cause, present, failed⟩ | ⟨bytes, found, notText | ⟨text, fault, rfl, refused⟩⟩)
    · exact ⟨_, load_of_error present failed⟩
    · exact ⟨_, load_of_not_isText found notText⟩
    · rw [load_of_text found, refused]
      exact ⟨_, rfl⟩

end Settings

end MarkdownLinks
