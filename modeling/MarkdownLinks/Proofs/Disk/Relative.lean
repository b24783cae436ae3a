import MarkdownLinks.Proofs.Disk.Canonical
import MarkdownLinks.Proofs.Path.Relative
import MarkdownLinks.Proofs.Text.Utf8

/-!
# Relative paths on a disk

On a disk without links, the relative path from the directory of a file to another file leads to
that file.  If all names on the disk are texts, so is the path.
-/

namespace MarkdownLinks

namespace Listing

/-- Whether all names are texts, here and in all directories below. -/
def NamesAreText : Listing → Prop
  | .empty => True
  | .file name _ rest => Utf8.IsText name.bytes ∧ rest.NamesAreText
  | .link name _ rest => Utf8.IsText name.bytes ∧ rest.NamesAreText
  | .directory name entries rest =>
    Utf8.IsText name.bytes ∧ entries.NamesAreText ∧ rest.NamesAreText

variable {listing : Listing}

theorem NamesAreText.find? {name : Name} {entry : Entry} (textNames : listing.NamesAreText)
    (found : listing.find? name = some entry) : Utf8.IsText name.bytes := by
  induction listing <;> grind [Listing.find?, NamesAreText]

theorem NamesAreText.find?_directory {name : Name} {entries : Listing}
    (textNames : listing.NamesAreText) (found : listing.find? name = some (.directory entries)) :
    entries.NamesAreText := by
  induction listing <;> grind [Listing.find?, NamesAreText]

theorem NamesAreText.at? {names : List Name} {entry : Entry} (textNames : listing.NamesAreText)
    (found : listing.at? names = some entry) : ∀ name ∈ names, Utf8.IsText name.bytes := by
  induction names generalizing listing with
  | nil => simp
  | cons name rest ih =>
    intro other mem
    simp only [Listing.at?] at found
    split at found
    · next entries inner =>
      rcases List.mem_cons.1 mem with rfl | later
      · exact textNames.find? inner
      · exact ih (textNames.find?_directory inner) found other later
    · next last _ inner =>
      split at found
      · next nothingMore =>
        simp only [List.isEmpty_iff.1 nothingMore, List.mem_singleton] at mem
        subst mem
        exact textNames.find? inner
      · cases found
    · cases found

end Listing

namespace Disk

/-- Whether all names on the disk are texts. -/
def NamesAreText (disk : Disk) : Prop :=
  disk.root.NamesAreText

variable {disk : Disk}

theorem holdsZero_join {p q : Path} (relative : q.isAbsolute = false)
    (pNoZero : holdsZero p = false) (qNoZero : holdsZero q = false) :
    holdsZero (p.join q) = false := by
  have notSlash : (0 : UInt8) ≠ slash := by decide
  simp only [holdsZero, List.contains_eq_mem, decide_eq_false_iff_not] at pNoZero qNoZero ⊢
  rw [Path.join, if_neg (by simp [relative])]
  split <;> simp [pNoZero, qNoZero, notSlash]

theorem LinkFree.exists_at?_of_isFile {names : List Name} (linkFree : disk.LinkFree)
    (isFile : disk.isFile (.ofNames names) = true) :
    holdsZero (.ofNames names) = false ∧
      ∃ content, disk.at? names = some (.file content) := by
  rcases exists_of_isFile isFile with ⟨content, found⟩
  rcases at?_of_entry found with ⟨_, located, -⟩
  exact ⟨(locate_eq_resolve located).1, content, linkFree.at?_of_entry_ofNames found⟩

theorem holdsZero_way {up : Nat} {down : List Name}
    (noZero : ∀ name ∈ down, (0 : UInt8) ∉ name.bytes) : holdsZero (.way up down) = false := by
  have notSlash : (0 : UInt8) ≠ slash := by decide
  have notDots : (0 : UInt8) ∉ [dot, dot] := by decide
  simp only [holdsZero, List.contains_eq_mem, decide_eq_false_iff_not, Path.bytes_way,
    mem_intercalate_iff notSlash]
  rintro ⟨piece, pieceMem, mem⟩
  rcases List.mem_append.1 pieceMem with isParent | isName
  · simp only [List.eq_of_mem_replicate isParent] at mem
    exact notDots mem
  · rcases List.mem_map.1 isName with ⟨name, nameMem, rfl⟩
    exact noZero name nameMem mem

section Relative

variable {common up down : List Name} {entries : Listing} {content : Content}

/-- A way up and down again between entries of a disk leads to what is at its end. -/
theorem locate_join_way (downNe : down ≠ [])
    (noZero : ∀ name ∈ common ++ up ++ down, (0 : UInt8) ∉ name.bytes)
    (start : disk.at? (common ++ up) = some (.directory entries))
    (reached : disk.at? (common ++ down) = some (.file content)) :
    disk.locate ((Path.ofNames (common ++ up)).join (.way up.length down)) =
      .ok (common ++ down) := by
  have absolute : ((Path.ofNames (common ++ up)).join (.way up.length down)).isAbsolute = true :=
    Path.isAbsolute_join (Path.isTidy_ofNames (common ++ up)).isAbsolute
  have joinNoZero :
      holdsZero ((Path.ofNames (common ++ up)).join (.way up.length down)) = false := by
    apply holdsZero_join Path.isAbsolute_way
    · apply holdsZero_ofNames.2
      intro name mem
      exact noZero name (List.mem_append_left _ mem)
    · apply holdsZero_way
      intro name mem
      exact noZero name (List.mem_append_right _ mem)
  have notLink : ∀ target, Entry.file content ≠ .link target := by simp
  have notLinkHere : ∀ target, Entry.directory entries ≠ .link target := by simp
  rcases Listing.exists_resolve_eq_travel disk.root maxLinks with ⟨follow, travels⟩
  rw [locate_of_isAbsolute absolute joinNoZero, Path.moves_join_ofNames _ Path.isAbsolute_way,
    Path.moves_way downNe, travels, List.cons_append, Listing.travel_stay (Listing.at?_nil _),
    Listing.travel_names (Listing.at?_nil _) start notLinkHere]
  exact Listing.travel_way start reached notLink

theorem isText_way (textNames : ∀ name ∈ down, Utf8.IsText name.bytes) (count : Nat) :
    Utf8.IsText (Path.way count down).bytes := by
  simp only [Path.bytes_way]
  apply Utf8.IsText.intercalate ⟨['/'], rfl⟩
  intro piece mem
  rcases List.mem_append.1 mem with isParent | isName
  · simp only [List.eq_of_mem_replicate isParent]
    exact ⟨['.', '.'], rfl⟩
  · rcases List.mem_map.1 isName with ⟨name, nameMem, rfl⟩
    exact textNames name nameMem

/-- The relative path from the directory of a file to another file is a text and leads there. -/
theorem LinkFree.exists_relative {outer names : List Name} {last : Name}
    (linkFree : disk.LinkFree) (textNames : disk.NamesAreText)
    (sourceIsFile : disk.isFile (.ofNames (outer ++ [last])) = true)
    (targetIsFile : disk.isFile (.ofNames names) = true) :
    ∃ t : Text, t ≠ [] ∧ (Path.ofText t).isAbsolute = false ∧
      Path.relative (.ofNames (outer ++ [last])) (.ofNames names) = .ofText t ∧
      disk.locate ((Path.ofNames outer).join (.ofText t)) = .ok names := by
  rcases linkFree.exists_at?_of_isFile sourceIsFile with ⟨sourceNoZero, _, sourceReached⟩
  rcases linkFree.exists_at?_of_isFile targetIsFile with ⟨targetNoZero, content, reached⟩
  rcases Listing.exists_directory_of_at?_append sourceReached (by simp) with ⟨entries, start⟩
  rcases Path.exists_relative_eq_way outer last names with ⟨common, up, down, rfl, rfl, written⟩
  have downNe : down ≠ [] := by
    rintro rfl
    rcases Listing.exists_directory_above start with ⟨shared, sharedStart⟩
    simp only [List.append_nil, Disk.at?, sharedStart] at reached
    cases reached
  have noZero : ∀ name ∈ common ++ up ++ down, (0 : UInt8) ∉ name.bytes := by
    simp only [holdsZero_ofNames] at sourceNoZero targetNoZero
    intro name mem
    rcases List.mem_append.1 mem with above | below
    · exact sourceNoZero name (List.mem_append_left _ above)
    · exact targetNoZero name (List.mem_append_right _ below)
  have downText : ∀ name ∈ down, Utf8.IsText name.bytes := by
    intro name mem
    exact textNames.at? reached name (List.mem_append_right _ mem)
  rcases isText_way downText up.length with ⟨t, bytes⟩
  have isOfText : Path.way up.length down = .ofText t := congrArg Path.mk bytes
  refine ⟨t, ?_, ?_, written.trans isOfText, ?_⟩
  · rintro rfl
    exact Path.bytes_way_ne_nil downNe bytes
  · simp only [← isOfText]
    exact Path.isAbsolute_way
  · simp only [← isOfText]
    exact locate_join_way downNe noZero start reached

end Relative

end Disk

end MarkdownLinks
