import MarkdownLinks.Proofs.Disk.Asked
import MarkdownLinks.Proofs.Disk.Readable
import MarkdownLinks.Proofs.Disk.Written
import MarkdownLinks.Proofs.Path.Rebase
import MarkdownLinks.Proofs.Root

/-!
# Trees placed on disks

A tree without links can be placed at different names on different disks.  Moves that never go above
the tree lead through it as if it were a disk of its own, so that a path below it refers to the same
entry wherever it is placed, as long as the path is not too long to be asked for.
-/

namespace MarkdownLinks

namespace Move

/-- Whether moves never go above the directory that lies so many steps above their start. -/
def staysInside : Nat → List Move → Bool
  | _, [] => true
  | depth, .stay :: rest => staysInside depth rest
  | 0, .up :: _ => false
  | depth + 1, .up :: rest => staysInside depth rest
  | depth, .into _ :: rest => staysInside (depth + 1) rest

section StaysInside

variable {depth : Nat} {here : List Name} {moves more : List Move}

theorem staysInside_names (names : List Name) :
    staysInside depth (names.map .into ++ moves) = staysInside (depth + names.length) moves := by
  induction names generalizing depth with
  | nil => rfl
  | cons name rest ih =>
    rw [List.map_cons, List.cons_append, staysInside, ih, List.length_cons]
    congr 1
    omega

theorem staysInside_stays (count : Nat) :
    staysInside depth (List.replicate count .stay ++ moves) = staysInside depth moves := by
  induction count with
  | zero => rfl
  | succ count ih =>
    rw [List.replicate_succ, List.cons_append, staysInside, ih]

theorem staysInside_of_append (inside : staysInside depth (moves ++ more) = true) :
    staysInside depth moves = true := by
  fun_induction staysInside depth moves with
  | case1 => rfl
  | case2 depth rest ih => exact ih inside
  | case3 rest => cases inside
  | case4 depth rest ih => exact ih inside
  | case5 depth name rest ih => exact ih inside

/-- A name in place of the last move stays inside. -/
theorem staysInside_concat_into {last : Move} (inside : staysInside depth (moves ++ [last]) = true)
    (name : Name) : staysInside depth (moves ++ [.into name]) = true := by
  have before := staysInside_of_append inside
  clear inside
  fun_induction staysInside depth moves with
  | case1 => rfl
  | case2 depth rest ih => exact ih before
  | case3 rest => cases before
  | case4 depth rest ih => exact ih before
  | case5 depth name rest ih => exact ih before

theorem staysInside_filterMap (inside : staysInside depth moves = true) :
    staysInside depth ((moves.filterMap Component.ofMove?).map Component.move) = true := by
  fun_induction staysInside depth moves with
  | case1 => rfl
  | case2 depth rest ih => exact ih inside
  | case3 rest => cases inside
  | case4 depth rest ih => exact ih inside
  | case5 depth name rest ih => exact ih inside

theorem lexical_below (base : List Name) (inside : staysInside here.length moves = true) :
    lexical (base ++ here) moves = base ++ lexical here moves := by
  induction moves generalizing here with
  | nil => rfl
  | cons move rest ih =>
    cases move with
    | stay => exact ih inside
    | up =>
      rcases here.eq_nil_or_concat with rfl | ⟨outer, last, rfl⟩
      · cases inside
      · rw [List.concat_eq_append] at inside ⊢
        rw [List.length_append, List.length_singleton] at inside
        simp only [lexical, ← List.append_assoc, List.dropLast_concat]
        exact ih inside
    | into name =>
      simp only [lexical, List.append_assoc]
      apply ih
      rw [List.length_append, List.length_singleton]
      exact inside

end StaysInside

end Move

namespace Listing

section Reached

variable {root : Listing}
  {follow : List Name → Path → List Move → Except IoError (List Name)}

/-- Whether names lead to an entry that is no link. -/
def Reaches (root : Listing) (names : List Name) : Prop :=
  ∃ entry, root.at? names = some entry ∧ ∀ target, entry ≠ .link target

theorem reaches_of_directory {names : List Name} {entries : Listing}
    (found : root.at? names = some (.directory entries)) : root.Reaches names :=
  ⟨_, found, by simp⟩

theorem reaches_of_travel {here found : List Name} {moves : List Move}
    (start : moves = [] → root.Reaches here)
    (followed : ∀ here entries target rest, root.at? here = some (.directory entries) →
      follow here target rest = .ok found → root.Reaches found)
    (arrived : root.travel follow here moves = .ok found) : root.Reaches found := by
  induction moves generalizing here with
  | nil =>
    cases arrived
    exact start rfl
  | cons move rest ih =>
    rcases exists_directory_of_travel_cons arrived with ⟨entries, directory⟩
    cases move with
    | stay =>
      rw [travel_stay directory] at arrived
      exact ih (fun _ => reaches_of_directory directory) arrived
    | up =>
      rw [travel_up directory] at arrived
      rcases exists_directory_dropLast directory with ⟨above, reached⟩
      exact ih (fun _ => reaches_of_directory reached) arrived
    | into name =>
      rcases travel_into_eq_ok directory arrived with
        ⟨target, -, follows⟩ | ⟨entry, inner, notLink, onward⟩
      · exact followed _ _ _ _ directory follows
      · apply ih _ onward
        intro _
        refine ⟨entry, ?_, notLink⟩
        rw [at?_append directory, at?_singleton, inner]

/-- What is looked up is never a link itself. -/
theorem reaches_of_resolve {links : Nat} {here found : List Name} {moves : List Move}
    (start : moves = [] → root.Reaches here)
    (arrived : root.resolve links here moves = .ok found) : root.Reaches found := by
  induction links generalizing here moves with
  | zero =>
    rw [resolve] at arrived
    apply reaches_of_travel start _ arrived
    intro _ _ _ _ _ failed
    cases failed
  | succ links ih =>
    rw [resolve] at arrived
    apply reaches_of_travel start _ arrived
    intro here entries target rest directory followed
    apply ih _ followed
    intro _
    split
    · exact ⟨.directory root, rfl, by simp⟩
    · exact reaches_of_directory directory

end Reached

/-- Moves that never go above a placed tree lead through it alone. -/
theorem travel_below {root tree : Listing} {base here : List Name} {moves : List Move}
    {follow other : List Name → Path → List Move → Except IoError (List Name)}
    (placed : root.at? base = some (.directory tree)) (linkFree : tree.LinkFree)
    (inside : Move.staysInside here.length moves = true) :
    root.travel follow (base ++ here) moves = (tree.travel other here moves).map (base ++ ·) := by
  induction moves generalizing here with
  | nil => rfl
  | cons move rest ih =>
    simp only [travel, at?_append placed]
    split
    · next entries start =>
      cases move with
      | stay => exact ih inside
      | up =>
        rcases here.eq_nil_or_concat with rfl | ⟨outer, last, rfl⟩
        · cases inside
        · rw [List.concat_eq_append] at inside ⊢
          rw [List.length_append, List.length_singleton] at inside
          simp only [← List.append_assoc, List.dropLast_concat]
          exact ih inside
      | into name =>
        simp only
        split
        · next target isLink =>
          exact absurd isLink (linkFree.at?_directory start).find?_ne_link
        · rw [List.append_assoc]
          apply ih
          rw [List.length_append, List.length_singleton]
          exact inside
        · rfl
    · rfl
    · rfl

end Listing

namespace Disk

/-- Whether a tree without links is the directory that some names lead to. -/
structure Places (disk : Disk) (base : List Name) (tree : Listing) : Prop where
  reached : disk.at? base = some (.directory tree)
  linkFree : tree.LinkFree
  noZero : ∀ name ∈ base, (0 : UInt8) ∉ name.bytes
  short : (Path.ofNames base).bytes.length ≤ maxPathLength

/-- Whether two paths refer to the same entry on two disks, if they refer to anything. -/
def SameEntry (disk : Disk) (p : Path) (other : Disk) (q : Path) : Prop :=
  ∀ entry, disk.entry p = .ok entry ↔ other.entry q = .ok entry

namespace SameEntry

variable {disk other : Disk} {p q : Path}

theorem contains_eq (same : disk.SameEntry p other q) : disk.contains p = other.contains q := by
  rw [Bool.eq_iff_iff, contains_iff, contains_iff]
  exact exists_congr same

theorem isFile_eq (same : disk.SameEntry p other q) : disk.isFile p = other.isFile q := by
  rw [Bool.eq_iff_iff, isFile_iff, isFile_iff]
  exact exists_congr fun content => same _

theorem isDirectory_eq (same : disk.SameEntry p other q) :
    disk.isDirectory p = other.isDirectory q := by
  rw [Bool.eq_iff_iff, isDirectory_iff, isDirectory_iff]
  exact exists_congr fun entries => same _

end SameEntry

section Places

variable {disk other : Disk} {base otherBase : List Name} {tree : Listing} {steps : List Component}

/-- Through names that reach an entry, looking up goes on from there. -/
theorem exists_locate_under (reaches : disk.root.Reaches base)
    (baseNoZero : ∀ name ∈ base, (0 : UInt8) ∉ name.bytes) :
    ∃ follow, ∀ steps : List Component, (∀ c ∈ steps, c.IsStep) →
      (∀ c ∈ steps, (0 : UInt8) ∉ c.bytes) →
      disk.locate (.under base steps) = disk.root.travel follow base (steps.map Component.move) := by
  rcases exists_locate_ofComponents disk with ⟨follow, locates⟩
  rcases reaches with ⟨entry, reached, notLink⟩
  refine ⟨follow, ?_⟩
  intro steps areSteps noZero
  have allNoZero : ∀ c ∈ base.map Component.name ++ steps, (0 : UInt8) ∉ c.bytes :=
    List.forall_mem_append.2 ⟨List.forall_mem_map.2 baseNoZero, noZero⟩
  rw [Path.under, locates _ (Path.isStep_append base areSteps) allNoZero, List.map_append,
    Component.map_move_names, Listing.travel_names (Listing.at?_nil _) reached notLink,
    List.nil_append]

/-- Through names that reach an entry, their own path leads to it. -/
theorem locate_ofNames (reaches : disk.root.Reaches base)
    (noZero : ∀ name ∈ base, (0 : UInt8) ∉ name.bytes) :
    disk.locate (.ofNames base) = .ok base := by
  rcases exists_locate_under reaches noZero with ⟨follow, locates⟩
  have located := locates [] (by simp) (by simp)
  rw [Path.under_nil, List.map_nil, Listing.travel] at located
  exact located

theorem entry_ofNames (reached : disk.at? base = some (.directory tree))
    (noZero : ∀ name ∈ base, (0 : UInt8) ∉ name.bytes)
    (short : (Path.ofNames base).bytes.length ≤ maxPathLength) :
    disk.entry (.ofNames base) = .ok (.directory tree) :=
  Disk.entry_eq_ok_iff.2
    ⟨short, base, locate_ofNames (Listing.reaches_of_directory reached) noZero, reached⟩

theorem reaches_of_locate {p : Path} (located : disk.locate p = .ok base) :
    disk.root.Reaches base := by
  have movesNe : p.moves ≠ [] := by
    rw [Path.moves, ne_eq, List.map_eq_nil_iff]
    exact splitAtEach_ne_nil _
  exact Listing.reaches_of_resolve (fun nothing => absurd nothing movesNe)
    (locate_eq_resolve located).2.2

/-- A canonical root is reached through no link, by names that can be looked up. -/
theorem exists_directory_of_canonicalRoot {given root : Path}
    (canonical : canonicalRoot disk given = .ok root) :
    ∃ base tree, root = .ofNames base ∧ disk.at? base = some (.directory tree) ∧
      (∀ name ∈ base, (0 : UInt8) ∉ name.bytes) ∧
      (Path.ofNames base).bytes.length ≤ maxPathLength := by
  rcases exists_names_of_canonicalRoot canonical with ⟨base, tree, rfl, found⟩
  rcases exists_names_of_canonical (canonicalRoot_eq_ok canonical).1 with ⟨names, located, same⟩
  obtain rfl := Path.ofNames_injective same
  rcases at?_of_entry found with ⟨others, rootLocated, isTree⟩
  have noZero : ∀ name ∈ base, (0 : UInt8) ∉ name.bytes :=
    holdsZero_ofNames.1 (locate_eq_resolve rootLocated).1
  rw [locate_ofNames (reaches_of_locate located) noZero] at rootLocated
  cases rootLocated
  exact ⟨base, tree, rfl, isTree, noZero, (Disk.entry_eq_ok_iff.1 found).1⟩

/-- The path of names that reach an entry is canonical, if it can be asked for. -/
theorem canonical_ofNames (reaches : disk.root.Reaches base)
    (noZero : ∀ name ∈ base, (0 : UInt8) ∉ name.bytes)
    (short : (Path.ofNames base).bytes.length ≤ maxPathLength) :
    disk.canonical (.ofNames base) = .ok (.ofNames base) := by
  apply canonical_eq_ok_iff.2
  refine ⟨base, locate_ofNames reaches noZero, ?_, rfl⟩
  rcases Listing.exists_askedOnWay_eq_asked disk.root maxLinks with ⟨asks, asksAll⟩
  rcases reaches with ⟨entry, reached, notLink⟩
  intro a mem
  rw [asked, if_pos (Path.isTidy_ofNames base).isAbsolute, asksAll] at mem
  by_cases isRoot : base = []
  · subst isRoot
    cases mem
  · rw [Path.moves_ofNames isRoot, Listing.asked] at mem
    rcases Listing.exists_prefix_of_mem_asked reached notLink mem with ⟨front, isPrefix, rfl⟩
    exact Nat.le_trans (Path.length_bytes_ofNames_le isPrefix) short

theorem canonicalRoot_ofNames (reached : disk.at? base = some (.directory tree))
    (noZero : ∀ name ∈ base, (0 : UInt8) ∉ name.bytes)
    (short : (Path.ofNames base).bytes.length ≤ maxPathLength) :
    canonicalRoot disk (.ofNames base) = .ok (.ofNames base) := by
  rw [canonicalRoot, canonical_ofNames (Listing.reaches_of_directory reached) noZero short]
  simp only [isDirectory_of_entry (entry_ofNames reached noZero short), if_true]

/-- A canonical root is its own canonical root. -/
theorem canonicalRoot_of_canonicalRoot {given root : Path}
    (canonical : canonicalRoot disk given = .ok root) : canonicalRoot disk root = .ok root := by
  rcases exists_directory_of_canonicalRoot canonical with ⟨base, tree, rfl, reached, noZero, short⟩
  exact canonicalRoot_ofNames reached noZero short

/-- The directory at a canonical root is placed there. -/
theorem places_of_canonicalRoot {given : Path}
    (canonical : canonicalRoot disk given = .ok (.ofNames base))
    (found : disk.entry (.ofNames base) = .ok (.directory tree)) (linkFree : tree.LinkFree) :
    disk.Places base tree := by
  rcases exists_directory_of_canonicalRoot canonical with
    ⟨names, other, same, reached, noZero, short⟩
  obtain rfl := Path.ofNames_injective same
  rw [entry_ofNames reached noZero short] at found
  cases found
  exact ⟨reached, linkFree, noZero, short⟩

/-- Making a path canonical that never leads out of a placed tree only normalizes it. -/
theorem Places.canonical_eq {p q : Path} {start : List Name} {moves : List Move}
    (placed : disk.Places base tree) (absolute : p.isAbsolute = true)
    (written : p.moves = .stay :: (base ++ start).map .into ++ moves)
    (inside : Move.staysInside start.length moves = true)
    (canonical : disk.canonical p = .ok q) : q = p.normalize := by
  rcases exists_names_of_canonical canonical with ⟨names, located, rfl⟩
  rcases locate_eq_resolve located with ⟨-, -, arrived⟩
  rcases Listing.exists_resolve_eq_travel disk.root maxLinks with ⟨follow, travels⟩
  have allInside : Move.staysInside 0 (start.map .into ++ moves) = true := by
    rw [Move.staysInside_names, Nat.zero_add]
    exact inside
  have below := @Listing.travel_below disk.root tree base [] _ follow
    (fun _ _ _ => .error .tooManyLinks) placed.reached placed.linkFree allInside
  rw [if_pos absolute, travels, written, List.cons_append, Listing.travel_stay (Listing.at?_nil _),
    List.map_append, List.append_assoc,
    Listing.travel_names (Listing.at?_nil _) placed.reached (by simp), List.nil_append] at arrived
  rw [List.append_nil, arrived] at below
  rw [Path.normalize_of_isAbsolute absolute, written, List.cons_append, Move.lexical,
    Move.lexical_append, Path.lexical_names, List.nil_append, Move.lexical_below base inside]
  cases found : tree.travel (fun _ _ _ => .error .tooManyLinks) [] (start.map .into ++ moves) with
  | error cause =>
    rw [found] at below
    cases below
  | ok inner =>
    rw [found] at below
    cases below
    rw [placed.linkFree.travel_eq_lexical found, Move.lexical_append, Path.lexical_names,
      List.nil_append]

/-- What a path below a placed tree refers to is found in the tree. -/
theorem Places.entry_eq_ok_iff {entry : Entry} (placed : disk.Places base tree)
    (areSteps : ∀ c ∈ steps, c.IsStep)
    (inside : Move.staysInside 0 (steps.map Component.move) = true) :
    disk.entry (.under base steps) = .ok entry ↔
      (Path.under base steps).bytes.length ≤ maxPathLength ∧
        (∀ c ∈ steps, (0 : UInt8) ∉ c.bytes) ∧
        ∃ names, tree.resolve 0 [] (steps.map Component.move) = .ok names ∧
          tree.at? names = some entry := by
  rcases exists_locate_under (Listing.reaches_of_directory placed.reached) placed.noZero with
    ⟨follow, locates⟩
  rw [Disk.entry_eq_ok_iff, Listing.resolve]
  refine and_congr_right fun _ => ?_
  by_cases noZero : ∀ c ∈ steps, (0 : UInt8) ∉ c.bytes
  · have below := @Listing.travel_below disk.root tree base [] _ follow
      (fun _ _ _ => .error .tooManyLinks) placed.reached placed.linkFree inside
    rw [List.append_nil] at below
    rw [and_iff_right noZero, locates steps areSteps noZero, below]
    cases tree.travel (fun _ _ _ => .error .tooManyLinks) [] (steps.map Component.move) with
    | error cause => simp [Except.map]
    | ok names => simp [Except.map, at?, Listing.at?_append placed.reached]
  · have holdsZero : holdsZero (.under base steps) ≠ false := by
      intro none
      apply noZero
      intro c mem
      exact holdsZero_ofComponents.1 none c (List.mem_append_right _ mem)
    simp only [noZero, false_and, iff_false]
    rintro ⟨names, located, -⟩
    exact holdsZero (locate_eq_resolve located).1

theorem Places.entry_root (placed : disk.Places base tree) :
    disk.entry (.ofNames base) = .ok (.directory tree) :=
  entry_ofNames placed.reached placed.noZero placed.short

/-- The names of a placed tree are its canonical root. -/
theorem Places.canonicalRoot_eq (placed : disk.Places base tree) :
    canonicalRoot disk (.ofNames base) = .ok (.ofNames base) :=
  canonicalRoot_ofNames placed.reached placed.noZero placed.short

/-- Whether a path is too long to be asked for below both roots or below neither. -/
def FitsAlike (root otherRoot p : Path) : Prop :=
  p.bytes.length ≤ maxPathLength ↔ (p.rebase root otherRoot).bytes.length ≤ maxPathLength

instance (root otherRoot p : Path) : Decidable (FitsAlike root otherRoot p) :=
  inferInstanceAs (Decidable (_ ↔ _))

theorem Places.sameEntry (placed : disk.Places base tree) (otherPlaced : other.Places otherBase tree)
    (areSteps : ∀ c ∈ steps, c.IsStep)
    (inside : Move.staysInside 0 (steps.map Component.move) = true)
    (fits : FitsAlike (.ofNames base) (.ofNames otherBase) (.under base steps)) :
    disk.SameEntry (.under base steps) other (.under otherBase steps) := by
  intro entry
  rw [placed.entry_eq_ok_iff areSteps inside, otherPlaced.entry_eq_ok_iff areSteps inside]
  rw [FitsAlike, Path.rebase_under areSteps] at fits
  exact and_congr_left fun _ => fits

/-- A name that is as long as a name may be. -/
def longName : Name := ⟨List.replicate Name.maxLength 0x6C, by decide⟩

/-- Directories in directories, and a tree in the last one. -/
def nested (tree : Listing) (names : List Name) : Listing :=
  names.foldr (fun name inner => .directory name inner .empty) tree

theorem at?_nested (tree : Listing) (names : List Name) :
    (nested tree names).at? names = some (.directory tree) := by
  induction names with
  | nil => rfl
  | cons name rest ih =>
    simp only [nested, List.foldr_cons, Listing.at?, Listing.find?, if_true]
    exact ih

theorem distinct_nested (distinct : tree.Distinct) (names : List Name) :
    (nested tree names).Distinct := by
  induction names with
  | nil => exact distinct
  | cons name rest ih => exact ⟨List.not_mem_nil, ih, trivial⟩

/-- The disk with nothing but a tree below directories of these names. -/
def nesting (tree : Listing) (distinct : tree.Distinct) (names : List Name) : Disk where
  root := nested tree names
  distinct := distinct_nested distinct names
  cwd := []

theorem places_nesting (distinct : tree.Distinct) (linkFree : tree.LinkFree)
    (noZero : ∀ name ∈ base, (0 : UInt8) ∉ name.bytes)
    (short : (Path.ofNames base).bytes.length ≤ maxPathLength) :
    (nesting tree distinct base).Places base tree :=
  ⟨at?_nested tree base, linkFree, noZero, short⟩

theorem readable_nesting (distinct : tree.Distinct) (readable : tree.Readable) :
    (nesting tree distinct base).Readable := by
  rw [Readable, nesting]
  induction base with
  | nil => exact readable
  | cons name rest ih => exact ⟨ih, trivial⟩

end Places

end Disk

end MarkdownLinks
