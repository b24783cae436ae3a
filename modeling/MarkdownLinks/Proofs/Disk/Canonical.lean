import MarkdownLinks.Proofs.Disk.Travel
import MarkdownLinks.Proofs.Path.Names

/-!
# Canonical paths on a disk

The path of a list of names is looked up by going down through these names.  What a path refers to
is always reached by a list of names from the root, and on a disk without links this list is the
one that an absolute path leads to by its names alone.
-/

namespace MarkdownLinks

theorem bind_eq_ok_iff {ε α β : Type} {first : Except ε α} {next : α → Except ε β} {b : β} :
    first >>= next = .ok b ↔ ∃ a, first = .ok a ∧ next a = .ok b := by
  cases first with
  | error failure =>
    constructor
    · intro done
      cases done
    · rintro ⟨a, given, -⟩
      cases given
  | ok a =>
    constructor
    · intro done
      exact ⟨a, rfl, done⟩
    · rintro ⟨other, given, done⟩
      cases given
      exact done

namespace Disk

/-- Whether there is no link on the disk. -/
def LinkFree (disk : Disk) : Prop :=
  disk.root.LinkFree

instance (disk : Disk) : Decidable disk.LinkFree :=
  inferInstanceAs (Decidable disk.root.LinkFree)

variable {disk : Disk}

theorem mem_bytes_ofNames {names : List Name} {b : UInt8} (notSlash : b ≠ slash) :
    b ∈ (Path.ofNames names).bytes ↔ ∃ name ∈ names, b ∈ name.bytes := by
  simp only [Path.bytes_ofNames, List.mem_cons, mem_intercalate_iff notSlash]
  grind

theorem holdsZero_ofNames {names : List Name} :
    holdsZero (.ofNames names) = false ↔ ∀ name ∈ names, (0 : UInt8) ∉ name.bytes := by
  have notSlash : (0 : UInt8) ≠ slash := by decide
  simp [holdsZero, mem_bytes_ofNames notSlash]

theorem locate_eq_resolve {p : Path} {found : List Name} (located : disk.locate p = .ok found) :
    holdsZero p = false ∧ p.bytes ≠ [] ∧
      disk.root.resolve maxLinks (if p.isAbsolute then [] else disk.cwd) p.moves = .ok found := by
  unfold locate at located
  split at located
  · cases located
  · next noZero =>
    split at located
    · cases located
    · next nonempty => exact ⟨by simpa using noZero, nonempty, located⟩

theorem locate_of_isAbsolute {p : Path} (absolute : p.isAbsolute = true)
    (noZero : holdsZero p = false) :
    disk.locate p = disk.root.resolve maxLinks [] p.moves := by
  rcases Path.isAbsolute_iff.1 absolute with ⟨rest, written⟩
  rw [locate, if_neg (by simp [noZero]), if_neg (by simp [written]), if_pos absolute]

/-- Without links, an absolute path that is found leads where it leads by its names alone. -/
theorem LinkFree.locate_eq {p : Path} {found : List Name} (linkFree : disk.LinkFree)
    (absolute : p.isAbsolute = true) (located : disk.locate p = .ok found) :
    found = Move.lexical [] p.moves := by
  rcases locate_eq_resolve located with ⟨-, -, resolved⟩
  rcases Listing.exists_resolve_eq_travel disk.root maxLinks with ⟨follow, travels⟩
  simp only [if_pos absolute, travels] at resolved
  exact Listing.LinkFree.travel_eq_lexical linkFree resolved

theorem at?_of_entry {p : Path} {entry : Entry} (found : disk.entry p = .ok entry) :
    ∃ names, disk.locate p = .ok names ∧ disk.at? names = some entry := by
  simp only [Disk.entry] at found
  split at found
  · cases found
  · cases located : disk.locate p with
    | error cause =>
      simp only [located] at found
      cases found
    | ok names =>
      simp only [located] at found
      refine ⟨names, rfl, ?_⟩
      cases reached : disk.at? names with
      | none => simp [bind, Except.bind, reached, throw, throwThe, MonadExceptOf.throw] at found
      | some other => simpa [bind, Except.bind, reached, pure, Except.pure] using found

/-- A path that is short enough refers to what is at the names that it leads to. -/
theorem entry_eq_ok_iff {p : Path} {entry : Entry} :
    disk.entry p = .ok entry ↔ p.bytes.length ≤ maxPathLength ∧
      ∃ names, disk.locate p = .ok names ∧ disk.at? names = some entry := by
  constructor
  · intro found
    refine ⟨?_, at?_of_entry found⟩
    rcases at?_of_entry found with ⟨names, located, -⟩
    have noZero : holdsZero p = false := (locate_eq_resolve located).1
    apply Nat.le_of_not_lt
    intro tooLong
    simp [Disk.entry, noZero, tooLong, bind, Except.bind, throw, throwThe,
      MonadExceptOf.throw] at found
  · rintro ⟨short, names, located, reached⟩
    have notTooLong : ¬ maxPathLength < p.bytes.length := Nat.not_lt.2 short
    simp only [Disk.entry, notTooLong, decide_false, Bool.false_and, Bool.false_eq_true, ↓reduceIte,
      located]
    simp [bind, Except.bind, reached, pure, Except.pure]

theorem LinkFree.at?_ne_link {names : List Name} {target : Path} (linkFree : disk.LinkFree) :
    disk.at? names ≠ some (.link target) :=
  Listing.LinkFree.at?_ne_link linkFree

theorem LinkFree.entry_ne_link {p target : Path} (linkFree : disk.LinkFree) :
    disk.entry p ≠ .ok (.link target) := by
  intro found
  rcases at?_of_entry found with ⟨names, -, reached⟩
  exact linkFree.at?_ne_link reached

theorem LinkFree.at?_of_entry_ofNames {names : List Name} {entry : Entry}
    (linkFree : disk.LinkFree) (found : disk.entry (.ofNames names) = .ok entry) :
    disk.at? names = some entry := by
  rcases at?_of_entry found with ⟨others, located, reached⟩
  have same := linkFree.locate_eq (Path.isTidy_ofNames names).isAbsolute located
  simp only [Path.lexical_moves_ofNames] at same
  exact same ▸ reached

theorem exists_of_isFile {p : Path} (isFile : disk.isFile p = true) :
    ∃ content, disk.entry p = .ok (.file content) := by
  unfold Disk.isFile at isFile
  split at isFile
  · next content found => exact ⟨content, found⟩
  · cases isFile

theorem exists_of_isDirectory {p : Path} (isDirectory : disk.isDirectory p = true) :
    ∃ entries, disk.entry p = .ok (.directory entries) := by
  unfold Disk.isDirectory at isDirectory
  split at isDirectory
  · next entries found => exact ⟨entries, found⟩
  · cases isDirectory

theorem contains_of_entry {p : Path} {entry : Entry} (found : disk.entry p = .ok entry) :
    disk.contains p = true := by
  simp [contains, found, Except.isOk, Except.toBool]

theorem contains_of_isFile {p : Path} (isFile : disk.isFile p = true) : disk.contains p = true := by
  rcases exists_of_isFile isFile with ⟨content, found⟩
  exact contains_of_entry found

theorem contains_of_isDirectory {p : Path} (isDirectory : disk.isDirectory p = true) :
    disk.contains p = true := by
  rcases exists_of_isDirectory isDirectory with ⟨entries, found⟩
  exact contains_of_entry found

theorem not_isDirectory_of_isFile {p : Path} (isFile : disk.isFile p = true) :
    disk.isDirectory p = false := by
  rcases exists_of_isFile isFile with ⟨content, found⟩
  simp [isDirectory, found]

theorem contains_iff {p : Path} :
    disk.contains p = true ↔ ∃ entry, disk.entry p = .ok entry := by
  constructor
  · intro contained
    cases found : disk.entry p with
    | error cause => simp [contains, found, Except.isOk, Except.toBool] at contained
    | ok entry => exact ⟨entry, rfl⟩
  · rintro ⟨entry, found⟩
    exact contains_of_entry found

theorem length_le_of_contains {p : Path} (contained : disk.contains p = true) :
    p.bytes.length ≤ maxPathLength := by
  rcases contains_iff.1 contained with ⟨entry, found⟩
  exact (entry_eq_ok_iff.1 found).1

theorem isFile_of_entry {p : Path} {content : Content} (found : disk.entry p = .ok (.file content)) :
    disk.isFile p = true := by
  simp [isFile, found]

theorem isDirectory_of_entry {p : Path} {entries : Listing}
    (found : disk.entry p = .ok (.directory entries)) : disk.isDirectory p = true := by
  simp [isDirectory, found]

theorem isFile_iff {p : Path} :
    disk.isFile p = true ↔ ∃ content, disk.entry p = .ok (.file content) := by
  constructor
  · exact exists_of_isFile
  · rintro ⟨content, found⟩
    exact isFile_of_entry found

theorem isDirectory_iff {p : Path} :
    disk.isDirectory p = true ↔ ∃ entries, disk.entry p = .ok (.directory entries) := by
  constructor
  · exact exists_of_isDirectory
  · rintro ⟨entries, found⟩
    exact isDirectory_of_entry found

/-- What a path leads to has a canonical path if every path that is asked for on the way is short
enough. -/
theorem canonical_eq_ok_iff {p q : Path} :
    disk.canonical p = .ok q ↔
      ∃ names, disk.locate p = .ok names ∧
        (∀ a ∈ disk.asked p, a.bytes.length ≤ maxPathLength) ∧ q = .ofNames names := by
  by_cases short : ∀ a ∈ disk.asked p, a.bytes.length ≤ maxPathLength
  · have noneTooLong : (disk.asked p).any (fun a => maxPathLength < a.bytes.length) = false := by
      simpa using short
    simp only [canonical, noneTooLong, Bool.and_false, Bool.false_eq_true, if_false]
    constructor
    · intro made
      rcases bind_eq_ok_iff.1 made with ⟨names, located, isMade⟩
      cases isMade
      exact ⟨names, located, short, rfl⟩
    · rintro ⟨names, located, -, rfl⟩
      exact bind_eq_ok_iff.2 ⟨names, located, rfl⟩
  · have tooLong : (disk.asked p).any (fun a => maxPathLength < a.bytes.length) = true := by
      simpa using short
    simp only [short, false_and, and_false, exists_false, iff_false]
    intro made
    cases zero : holdsZero p with
    | false =>
      simp only [canonical, zero, tooLong] at made
      cases made
    | true =>
      simp only [canonical, zero, locate] at made
      cases made

theorem exists_names_of_canonical {p q : Path} (canonical : disk.canonical p = .ok q) :
    ∃ names, disk.locate p = .ok names ∧ q = .ofNames names := by
  rcases canonical_eq_ok_iff.1 canonical with ⟨names, located, -, same⟩
  exact ⟨names, located, same⟩

/-- Without links, making an absolute path canonical only normalizes it. -/
theorem LinkFree.canonical_eq {p q : Path} (linkFree : disk.LinkFree)
    (absolute : p.isAbsolute = true) (canonical : disk.canonical p = .ok q) : q = p.normalize := by
  rcases exists_names_of_canonical canonical with ⟨names, located, rfl⟩
  rw [linkFree.locate_eq absolute located, Path.normalize_of_isAbsolute absolute]

end Disk

end MarkdownLinks
