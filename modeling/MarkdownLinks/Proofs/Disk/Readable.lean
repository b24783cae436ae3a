import MarkdownLinks.Proofs.Disk.Canonical

/-!
# Readable files

A file that is there need not be readable.  Reading a path gives bytes exactly if it leads to a file
that has them; where all files of a disk can be read, every path to a file can.
-/

namespace MarkdownLinks

namespace Listing

/-- Whether all files can be read, here and in all directories below. -/
def Readable : Listing → Prop
  | .empty => True
  | .file _ (.bytes _) rest => rest.Readable
  | .file _ (.unreadable _) _ => False
  | .link _ _ rest => rest.Readable
  | .directory _ entries rest => entries.Readable ∧ rest.Readable

instance decidableReadable : (listing : Listing) → Decidable listing.Readable
  | .empty => inferInstanceAs (Decidable True)
  | .file _ (.bytes _) rest => decidableReadable rest
  | .file _ (.unreadable _) _ => inferInstanceAs (Decidable False)
  | .link _ _ rest => decidableReadable rest
  | .directory _ entries rest =>
    have := decidableReadable entries
    have := decidableReadable rest
    inferInstanceAs (Decidable (entries.Readable ∧ rest.Readable))

variable {listing : Listing}

theorem Readable.find?_directory {entries : Listing} {name : Name} (readable : listing.Readable)
    (found : listing.find? name = some (.directory entries)) : entries.Readable := by
  fun_induction Readable listing <;> grind [find?, Readable]

theorem Readable.find?_file {content : Content} {name : Name} (readable : listing.Readable)
    (found : listing.find? name = some (.file content)) : ∃ bytes, content = .bytes bytes := by
  fun_induction Readable listing <;> grind [find?, Readable]

theorem Readable.at?_file {content : Content} {names : List Name} (readable : listing.Readable)
    (found : listing.at? names = some (.file content)) : ∃ bytes, content = .bytes bytes := by
  induction names generalizing listing with
  | nil => cases found
  | cons name rest ih =>
    simp only [at?] at found
    split at found
    · next entries inner => exact ih (readable.find?_directory inner) found
    · next last _ inner =>
      split at found
      · cases found
        exact readable.find?_file inner
      · cases found
    · cases found

end Listing

namespace Disk

/-- Whether all files on the disk can be read. -/
def Readable (disk : Disk) : Prop :=
  disk.root.Readable

instance (disk : Disk) : Decidable disk.Readable :=
  inferInstanceAs (Decidable disk.root.Readable)

variable {disk : Disk} {p : Path}

theorem read_eq_ok_iff {bytes : Bytes} :
    disk.read p = .ok bytes ↔ disk.entry p = .ok (.file (.bytes bytes)) := by
  constructor
  · intro read
    rcases bind_eq_ok_iff.1 read with ⟨entry, found, given⟩
    rw [found]
    split at given
    · cases given
      rfl
    · cases given
    · cases given
  · intro found
    exact bind_eq_ok_iff.2 ⟨_, found, rfl⟩

/-- Where all files can be read, every path that leads to a file leads to its bytes. -/
theorem Readable.exists_entry_of_isFile (readable : disk.Readable) (isFile : disk.isFile p = true) :
    ∃ bytes, disk.entry p = .ok (.file (.bytes bytes)) := by
  rcases exists_of_isFile isFile with ⟨content, found⟩
  rcases at?_of_entry found with ⟨names, -, reached⟩
  rcases Listing.Readable.at?_file readable reached with ⟨bytes, rfl⟩
  exact ⟨bytes, found⟩

end Disk

end MarkdownLinks
