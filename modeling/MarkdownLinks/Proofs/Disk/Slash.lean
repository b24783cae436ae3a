import MarkdownLinks.Proofs.Disk.Placed

/-!
# Looking up with a slash at the end

A slash after a path asks for a directory.  It is one move more, and this move is made wherever the
moves before it arrive, also behind links: so the path leads where it leads without the slash if a
directory is there, and nowhere otherwise.  Making it canonical asks for one path more, the canonical
path with the slash, and fails if this one is too long.
-/

namespace MarkdownLinks

namespace Listing

/-- What some names lead to, if this must be a directory. -/
def directoryAt (root : Listing) (names : List Name) : Except IoError (List Name) :=
  match root.at? names with
  | some (.directory _) => .ok names
  | some _ => .error .notADirectory
  | none => .error .notFound

theorem directoryAt_of_directory {root entries : Listing} {names : List Name}
    (found : root.at? names = some (.directory entries)) : root.directoryAt names = .ok names := by
  simp only [directoryAt, found]

section Stay

variable {root : Listing} {here : List Name} {moves : List Move}
  {follow : List Name → Path → List Move → Except IoError (List Name)}

theorem travel_concat_stay
    (followed : ∀ here target rest,
      follow here target (rest ++ [.stay]) = (follow here target rest).bind root.directoryAt) :
    root.travel follow here (moves ++ [.stay]) =
      (root.travel follow here moves).bind root.directoryAt := by
  induction moves generalizing here with
  | nil => rfl
  | cons move rest ih =>
    simp only [List.cons_append, travel]
    split
    · next entries start =>
      cases move with
      | stay => exact ih
      | up => exact ih
      | into name =>
        simp only
        split
        · exact followed _ _ _
        · exact ih
        · rfl
    · rfl
    · rfl

/-- The induction is on the number of links that may be followed: behind a link, the moves after it
end with the same move. -/
theorem resolve_concat_stay {links : Nat} :
    root.resolve links here (moves ++ [.stay]) =
      (root.resolve links here moves).bind root.directoryAt := by
  induction links generalizing here moves with
  | zero =>
    rw [resolve, resolve]
    apply travel_concat_stay
    intro here target rest
    rfl
  | succ links ih =>
    rw [resolve, resolve]
    apply travel_concat_stay
    intro here target rest
    rw [← List.append_assoc]
    exact ih

end Stay

end Listing

namespace Disk

variable {disk : Disk} {p q : Path}

theorem bytes_append_slash (p : Path) : (p.append ['/']).bytes = p.bytes ++ [slash] :=
  rfl

/-- A path with a slash after it leads where it leads without, if there is a directory. -/
theorem locate_append_slash (nonempty : p.bytes ≠ []) :
    disk.locate (p.append ['/']) = (disk.locate p).bind disk.root.directoryAt := by
  have sameZero : holdsZero (p.append ['/']) = holdsZero p := by
    have notSlash : (0 : UInt8) ≠ slash := by decide
    simp [holdsZero, bytes_append_slash, notSlash]
  rw [locate, locate, sameZero, Path.isAbsolute_append_eq nonempty, Path.moves_append_slash,
    Listing.resolve_concat_stay, bytes_append_slash]
  by_cases zero : holdsZero p = true
  · rw [if_pos zero, if_pos zero]
    rfl
  · have slashedNe : p.bytes ++ [slash] ≠ [] := by simp
    rw [if_neg zero, if_neg zero, if_neg slashedNe, if_neg nonempty]

theorem locate_of_canonical (canonical : disk.canonical p = .ok q) (zero : holdsZero q = false) :
    disk.locate q = disk.locate p := by
  rcases exists_names_of_canonical canonical with ⟨names, located, rfl⟩
  rw [located]
  exact locate_ofNames (reaches_of_locate located) (holdsZero_ofNames.1 zero)

/-- A canonical path refers to something if it can be asked for. -/
theorem contains_of_canonical (canonical : disk.canonical p = .ok q) (zero : holdsZero q = false)
    (short : q.bytes.length ≤ maxPathLength) : disk.contains q = true := by
  rcases exists_names_of_canonical canonical with ⟨names, located, rfl⟩
  rcases reaches_of_locate located with ⟨entry, reached, -⟩
  apply contains_of_entry
  apply entry_eq_ok_iff.2
  exact ⟨short, names, (locate_of_canonical canonical zero).trans located, reached⟩

/-- What can be asked for when something is written after it can be asked for without. -/
theorem contains_of_contains_append (canonical : disk.canonical p = .ok q) {t : Text}
    (contained : disk.contains (q.append t) = true) : disk.contains q = true := by
  rcases contains_iff.1 contained with ⟨entry, found⟩
  rcases entry_eq_ok_iff.1 found with ⟨short, names, located, -⟩
  apply contains_of_canonical canonical
  · have zero := (locate_eq_resolve located).1
    simp only [holdsZero, Path.append, List.contains_append, Bool.or_eq_false_iff] at zero
    exact zero.1
  · apply Nat.le_trans _ short
    simp only [Path.append, List.length_append]
    exact Nat.le_add_right _ _

theorem asked_append_slash (nonempty : p.bytes ≠ []) :
    disk.asked (p.append ['/']) = disk.root.askedOnWay maxLinks
      (if p.isAbsolute then [] else disk.cwd) (p.moves ++ [.stay]) := by
  rw [asked, Path.isAbsolute_append_eq nonempty, Path.moves_append_slash]

/-- A slash after a path changes nothing about its canonical path if this is that of a directory and
can still be asked for with the slash. -/
theorem canonical_append_slash (nonempty : p.bytes ≠ []) (canonical : disk.canonical p = .ok q)
    (isDirectory : disk.isDirectory q = true) (fits : q.bytes.length < maxPathLength) :
    disk.canonical (p.append ['/']) = .ok q := by
  rcases exists_of_isDirectory isDirectory with ⟨entries, found⟩
  rcases at?_of_entry found with ⟨others, othersLocated, reached⟩
  rw [locate_of_canonical canonical (locate_eq_resolve othersLocated).1] at othersLocated
  rcases canonical_eq_ok_iff.1 canonical with ⟨names, located, short, rfl⟩
  obtain rfl := Except.ok.inj (located.symm.trans othersLocated)
  apply canonical_eq_ok_iff.2
  refine ⟨names, ?_, ?_, rfl⟩
  · rw [locate_append_slash nonempty, located]
    exact Listing.directoryAt_of_directory reached
  · intro a mem
    rw [asked_append_slash nonempty] at mem
    rcases Listing.mem_askedOnWay_of_concat_stay (locate_eq_resolve located).2.2 mem with
      before | rfl
    · exact short a before
    · simp only [bytes_append_slash, List.length_append, List.length_singleton]
      exact fits

/-- What a path leads to with a slash after it, it leads to without. -/
theorem canonical_of_append_slash (nonempty : p.bytes ≠ [])
    (canonical : disk.canonical (p.append ['/']) = .ok q) : disk.canonical p = .ok q := by
  rcases canonical_eq_ok_iff.1 canonical with ⟨names, located, short, rfl⟩
  apply canonical_eq_ok_iff.2
  refine ⟨names, ?_, ?_, rfl⟩
  · rw [locate_append_slash nonempty] at located
    rcases bind_eq_ok_iff.1 located with ⟨others, arrived, isDirectory⟩
    rw [Listing.directoryAt] at isDirectory
    split at isDirectory
    · cases isDirectory
      exact arrived
    · cases isDirectory
    · cases isDirectory
  · intro a mem
    apply short a
    rw [asked_append_slash nonempty]
    exact Listing.mem_askedOnWay_concat_stay mem

end Disk

end MarkdownLinks
