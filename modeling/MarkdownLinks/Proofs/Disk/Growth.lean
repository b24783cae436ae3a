import MarkdownLinks.Proofs.Disk.Canonical

/-!
# Growing disks

A disk grows when files and directories are added to it: every file keeps its content, and every
directory stays a directory.  As long as there are no links, whatever a path led to before it leads
to afterwards.
-/

namespace MarkdownLinks

namespace Disk

/-- Whether every file of a disk is on another one too, with the same content, and every directory
is a directory there. -/
structure GrowsTo (disk larger : Disk) : Prop where
  file : ∀ {names content}, disk.at? names = some (.file content) →
    larger.at? names = some (.file content)
  directory : ∀ {names entries}, disk.at? names = some (.directory entries) →
    ∃ more, larger.at? names = some (.directory more)

namespace GrowsTo

variable {disk larger : Disk}

theorem exists_at?_of_find? (grows : disk.GrowsTo larger) (linkFree : disk.LinkFree)
    {here : List Name} {entries : Listing} {name : Name} {entry : Entry}
    (start : disk.at? here = some (.directory entries)) (found : entries.find? name = some entry) :
    ∃ later, larger.at? (here ++ [name]) = some later ∧ ∀ target, later ≠ .link target := by
  have reached : disk.at? (here ++ [name]) = some entry := by
    rw [Disk.at?, Listing.at?_append start, Listing.at?_singleton, found]
  cases entry with
  | file content =>
    refine ⟨_, grows.file reached, ?_⟩
    simp
  | link target =>
    exact absurd found (linkFree.at?_directory start).find?_ne_link
  | directory inner =>
    rcases grows.directory reached with ⟨more, laterReached⟩
    refine ⟨_, laterReached, ?_⟩
    simp

/-- Moves lead on a larger disk where they led before. -/
theorem travel_eq_ok {follow other : List Name → Path → List Move → Except IoError (List Name)}
    {here found : List Name} {moves : List Move} (grows : disk.GrowsTo larger)
    (linkFree : disk.LinkFree) (arrived : disk.root.travel follow here moves = .ok found) :
    larger.root.travel other here moves = .ok found := by
  induction moves generalizing here with
  | nil => exact arrived
  | cons move rest ih =>
    rcases Listing.exists_directory_of_travel_cons arrived with ⟨entries, start⟩
    rcases grows.directory start with ⟨more, laterStart⟩
    cases move with
    | stay =>
      rw [Listing.travel_stay start] at arrived
      rw [Listing.travel_stay laterStart]
      exact ih arrived
    | up =>
      rw [Listing.travel_up start] at arrived
      rw [Listing.travel_up laterStart]
      exact ih arrived
    | into name =>
      rcases Listing.LinkFree.travel_into_eq_ok linkFree start arrived with
        ⟨entry, entryFound, onward⟩
      rcases grows.exists_at?_of_find? linkFree start entryFound with
        ⟨later, laterReached, notLink⟩
      have laterFound : more.find? name = some later := by
        rw [← Listing.at?_singleton, ← Listing.at?_append laterStart]
        exact laterReached
      rw [Listing.travel_into laterStart laterFound notLink]
      exact ih onward

theorem locate_eq_ok {p : Path} {found : List Name} (grows : disk.GrowsTo larger)
    (linkFree : disk.LinkFree) (absolute : p.isAbsolute = true)
    (located : disk.locate p = .ok found) : larger.locate p = .ok found := by
  rcases locate_eq_resolve located with ⟨noZero, -, resolved⟩
  rcases Listing.exists_resolve_eq_travel disk.root maxLinks with ⟨follow, travels⟩
  rcases Listing.exists_resolve_eq_travel larger.root maxLinks with ⟨other, laterTravels⟩
  simp only [if_pos absolute, travels] at resolved
  rw [locate_of_isAbsolute absolute noZero, laterTravels]
  exact grows.travel_eq_ok linkFree resolved

section Entry

variable {p : Path} (grows : disk.GrowsTo larger) (linkFree : disk.LinkFree)
  (absolute : p.isAbsolute = true)

include grows linkFree absolute

theorem entry_file {content : Content} (found : disk.entry p = .ok (.file content)) :
    larger.entry p = .ok (.file content) := by
  rcases entry_eq_ok_iff.1 found with ⟨short, names, located, reached⟩
  apply entry_eq_ok_iff.2
  exact ⟨short, names, grows.locate_eq_ok linkFree absolute located, grows.file reached⟩

theorem exists_entry_directory {entries : Listing}
    (found : disk.entry p = .ok (.directory entries)) :
    ∃ more, larger.entry p = .ok (.directory more) := by
  rcases entry_eq_ok_iff.1 found with ⟨short, names, located, reached⟩
  rcases grows.directory reached with ⟨more, laterReached⟩
  refine ⟨more, entry_eq_ok_iff.2 ⟨short, names, ?_, laterReached⟩⟩
  exact grows.locate_eq_ok linkFree absolute located

theorem contains_of_contains (contained : disk.contains p = true) : larger.contains p = true := by
  rcases contains_iff.1 contained with ⟨entry, found⟩
  cases entry with
  | file content => exact contains_of_entry (grows.entry_file linkFree absolute found)
  | link target => exact absurd found linkFree.entry_ne_link
  | directory entries =>
    rcases grows.exists_entry_directory linkFree absolute found with ⟨more, laterFound⟩
    exact contains_of_entry laterFound

/-- What is a file on the larger disk, and was there before, was the same file before. -/
theorem exists_entry_file_of_isFile (contained : disk.contains p = true)
    (isFile : larger.isFile p = true) :
    ∃ content, disk.entry p = .ok (.file content) ∧ larger.entry p = .ok (.file content) := by
  rcases contains_iff.1 contained with ⟨entry, found⟩
  cases entry with
  | file content => exact ⟨content, found, grows.entry_file linkFree absolute found⟩
  | link target => exact absurd found linkFree.entry_ne_link
  | directory entries =>
    rcases grows.exists_entry_directory linkFree absolute found with ⟨more, laterFound⟩
    rcases exists_of_isFile isFile with ⟨content, isContent⟩
    rw [laterFound] at isContent
    cases isContent

end Entry

end GrowsTo

end Disk

end MarkdownLinks
