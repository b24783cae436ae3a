import MarkdownLinks.Proofs.Path.Tidy
import MarkdownLinks.Disk.Lookup

/-!
# Travelling through a disk

A list of names is followed without surprises as long as no link is among the entries on the way.
On a disk without any link, moves that lead somewhere lead where they lead by the names alone.
-/

namespace MarkdownLinks

namespace Listing

/-- Whether there is no link among the entries, here and in all directories below. -/
def LinkFree : Listing → Prop
  | .empty => True
  | .file _ _ rest => rest.LinkFree
  | .link _ _ _ => False
  | .directory _ entries rest => entries.LinkFree ∧ rest.LinkFree

instance decidableLinkFree : (listing : Listing) → Decidable listing.LinkFree
  | .empty => inferInstanceAs (Decidable True)
  | .file _ _ rest => decidableLinkFree rest
  | .link _ _ _ => inferInstanceAs (Decidable False)
  | .directory _ entries rest =>
    have := decidableLinkFree entries
    have := decidableLinkFree rest
    inferInstanceAs (Decidable (entries.LinkFree ∧ rest.LinkFree))

theorem LinkFree.find?_directory {listing entries : Listing} {name : Name}
    (linkFree : listing.LinkFree) (found : listing.find? name = some (.directory entries)) :
    entries.LinkFree := by
  induction listing <;> grind [find?, LinkFree]

theorem LinkFree.find?_ne_link {listing : Listing} {name : Name} {target : Path}
    (linkFree : listing.LinkFree) : listing.find? name ≠ some (.link target) := by
  induction listing <;> grind [find?, LinkFree]

theorem exists_of_at?_cons {listing entries : Listing} {name : Name} {rest : List Name}
    (found : listing.at? (name :: rest) = some (.directory entries)) :
    ∃ inner, listing.find? name = some (.directory inner) ∧
      inner.at? rest = some (.directory entries) := by
  simp only [at?] at found
  split at found
  · next inner isDirectory => exact ⟨inner, isDirectory, found⟩
  · next entry notDirectory _ =>
    split at found
    · cases found
      exact absurd rfl (notDirectory entries)
    · cases found
  · cases found

theorem LinkFree.at?_directory {listing entries : Listing} {names : List Name}
    (linkFree : listing.LinkFree) (found : listing.at? names = some (.directory entries)) :
    entries.LinkFree := by
  induction names generalizing listing with
  | nil =>
    cases found
    exact linkFree
  | cons name rest ih =>
    rcases exists_of_at?_cons found with ⟨inner, isDirectory, reached⟩
    exact ih (linkFree.find?_directory isDirectory) reached

theorem at?_append {listing entries : Listing} {names more : List Name}
    (found : listing.at? names = some (.directory entries)) :
    listing.at? (names ++ more) = entries.at? more := by
  induction names generalizing listing with
  | nil =>
    cases found
    rfl
  | cons name rest ih =>
    rcases exists_of_at?_cons found with ⟨inner, isDirectory, reached⟩
    simp only [List.cons_append, at?, isDirectory]
    exact ih reached

@[simp]
theorem at?_nil (listing : Listing) : listing.at? [] = some (.directory listing) :=
  rfl

@[simp]
theorem at?_singleton (listing : Listing) (name : Name) :
    listing.at? [name] = listing.find? name := by
  simp only [at?]
  split
  · next entries found => rw [found]
  · next found => simp [found]
  · next absent => rw [absent]

theorem exists_directory_of_at?_append {listing : Listing} {names more : List Name} {entry : Entry}
    (found : listing.at? (names ++ more) = some entry) (nonempty : more ≠ []) :
    ∃ entries, listing.at? names = some (.directory entries) := by
  induction names generalizing listing with
  | nil => exact ⟨listing, rfl⟩
  | cons name rest ih =>
    simp only [List.cons_append, at?] at found
    simp only [at?]
    split at found
    · exact ih found
    · simp [nonempty] at found
    · cases found

theorem exists_directory_above {listing entries : Listing} {names more : List Name}
    (found : listing.at? (names ++ more) = some (.directory entries)) :
    ∃ above, listing.at? names = some (.directory above) := by
  by_cases nothingMore : more = []
  · subst nothingMore
    simp only [List.append_nil] at found
    exact ⟨entries, found⟩
  · exact exists_directory_of_at?_append found nothingMore

theorem exists_directory_dropLast {listing entries : Listing} {names : List Name}
    (found : listing.at? names = some (.directory entries)) :
    ∃ above, listing.at? names.dropLast = some (.directory above) := by
  rcases names.eq_nil_or_concat with rfl | ⟨outer, last, rfl⟩
  · exact ⟨listing, rfl⟩
  · rw [List.concat_eq_append] at found ⊢
    rw [List.dropLast_concat]
    exact exists_directory_above found

theorem LinkFree.at?_ne_link {listing : Listing} {names : List Name} {target : Path}
    (linkFree : listing.LinkFree) : listing.at? names ≠ some (.link target) := by
  intro found
  rcases names.eq_nil_or_concat with rfl | ⟨outer, last, rfl⟩
  · cases found
  · rw [List.concat_eq_append] at found
    rcases exists_directory_of_at?_append found (by simp) with ⟨entries, above⟩
    rw [at?_append above, at?_singleton] at found
    exact (linkFree.at?_directory above).find?_ne_link found

section Travel

variable {root entries : Listing}
  {follow : List Name → Path → List Move → Except IoError (List Name)}
  {here : List Name} {rest : List Move}

theorem travel_stay (start : root.at? here = some (.directory entries)) :
    root.travel follow here (.stay :: rest) = root.travel follow here rest := by
  simp only [travel, start]

theorem travel_up (start : root.at? here = some (.directory entries)) :
    root.travel follow here (.up :: rest) = root.travel follow here.dropLast rest := by
  simp only [travel, start]

theorem travel_into {name : Name} {entry : Entry}
    (start : root.at? here = some (.directory entries))
    (found : entries.find? name = some entry) (notLink : ∀ target, entry ≠ .link target) :
    root.travel follow here (.into name :: rest) = root.travel follow (here ++ [name]) rest := by
  simp only [travel, start]
  cases entry with
  | link target => exact absurd rfl (notLink target)
  | file content => simp [found]
  | directory inner => simp [found]

/-- Moves that lead somewhere start in a directory. -/
theorem exists_directory_of_travel_cons {move : Move} {found : List Name}
    (arrived : root.travel follow here (move :: rest) = .ok found) :
    ∃ entries, root.at? here = some (.directory entries) := by
  simp only [travel] at arrived
  split at arrived
  · next entries start => exact ⟨entries, start⟩
  · cases arrived
  · cases arrived

/-- A name that leads somewhere is that of a link, which is followed, or that of another entry. -/
theorem travel_into_eq_ok {name : Name} {found : List Name}
    (start : root.at? here = some (.directory entries))
    (arrived : root.travel follow here (.into name :: rest) = .ok found) :
    (∃ target, entries.find? name = some (.link target) ∧
      follow here target rest = .ok found) ∨
    ∃ entry, entries.find? name = some entry ∧ (∀ target, entry ≠ .link target) ∧
      root.travel follow (here ++ [name]) rest = .ok found := by
  simp only [travel, start] at arrived
  split at arrived
  · next target isLink => exact .inl ⟨target, isLink, arrived⟩
  · next entry notLink isEntry => exact .inr ⟨entry, isEntry, notLink, arrived⟩
  · cases arrived

theorem LinkFree.travel_into_eq_ok {name : Name} {found : List Name} (linkFree : root.LinkFree)
    (start : root.at? here = some (.directory entries))
    (arrived : root.travel follow here (.into name :: rest) = .ok found) :
    ∃ entry, entries.find? name = some entry ∧
      root.travel follow (here ++ [name]) rest = .ok found := by
  rcases Listing.travel_into_eq_ok start arrived with
    ⟨target, isLink, -⟩ | ⟨entry, isEntry, -, onward⟩
  · exact absurd isLink (linkFree.at?_directory start).find?_ne_link
  · exact ⟨entry, isEntry, onward⟩

theorem travel_names {names : List Name} {entry : Entry}
    (start : root.at? here = some (.directory entries)) (reached : entries.at? names = some entry)
    (notLink : ∀ target, entry ≠ .link target) :
    root.travel follow here (names.map .into ++ rest) =
      root.travel follow (here ++ names) rest := by
  induction names generalizing here entries with
  | nil => simp
  | cons name more ih =>
    simp only [at?] at reached
    simp only [List.map_cons, List.cons_append]
    split at reached
    · next inner found =>
      have next : root.at? (here ++ [name]) = some (.directory inner) := by
        rw [at?_append start, at?, found]
        rfl
      simp only [travel_into start found (by simp), ih next reached, List.append_assoc,
        List.singleton_append]
    · next last notDirectory found =>
      split at reached
      · next nothingMore =>
        cases reached
        simp only [travel_into start found notLink, List.isEmpty_iff.1 nothingMore]
        rfl
      · cases reached
    · cases reached

/-- As many `..` as there are names lead out of a directory again. -/
theorem travel_ups {below : List Name}
    (start : root.at? (here ++ below) = some (.directory entries)) :
    root.travel follow (here ++ below) (List.replicate below.length .up ++ rest) =
      root.travel follow here rest := by
  induction hn : below.length generalizing below entries with
  | zero =>
    simp [List.length_eq_zero_iff.1 hn]
  | succ n ih =>
    rcases below.eq_nil_or_concat with rfl | ⟨outer, last, rfl⟩
    · simp at hn
    · simp only [List.concat_eq_append, ← List.append_assoc] at start
      rcases exists_directory_of_at?_append start (by simp) with ⟨outerEntries, outerStart⟩
      have shorter : outer.length = n := by simpa using hn
      simp only [List.replicate_succ, List.cons_append, List.concat_eq_append, ← List.append_assoc,
        travel_up start, List.dropLast_concat, ih outerStart shorter]

/-- Going up to what two lists of names share, and down from there. -/
theorem travel_way {common up down : List Name} {entry : Entry}
    (start : root.at? (common ++ up) = some (.directory entries))
    (reached : root.at? (common ++ down) = some entry) (notLink : ∀ target, entry ≠ .link target) :
    root.travel follow (common ++ up) (List.replicate up.length .up ++ down.map .into) =
      .ok (common ++ down) := by
  rcases exists_directory_above start with ⟨shared, sharedStart⟩
  simp only [at?_append sharedStart] at reached
  have downwards : root.travel follow common (down.map .into ++ []) =
      root.travel follow (common ++ down) [] :=
    travel_names sharedStart reached notLink
  rw [List.append_nil] at downwards
  simp only [travel_ups start, downwards, travel]

/-- Without links, moves that lead somewhere lead where they lead by the names alone. -/
theorem LinkFree.travel_eq_lexical {moves : List Move} {found : List Name}
    (linkFree : root.LinkFree) (arrived : root.travel follow here moves = .ok found) :
    found = Move.lexical here moves := by
  induction moves generalizing here with
  | nil =>
    cases arrived
    rfl
  | cons move more ih =>
    rcases exists_directory_of_travel_cons arrived with ⟨inner, start⟩
    cases move with
    | stay =>
      rw [travel_stay start] at arrived
      exact ih arrived
    | up =>
      rw [travel_up start] at arrived
      exact ih arrived
    | into name =>
      rcases linkFree.travel_into_eq_ok start arrived with ⟨entry, -, onward⟩
      exact ih onward

/-- Without links, moves can be made in two parts. -/
theorem LinkFree.travel_append (linkFree : root.LinkFree) (here : List Name)
    (moves more : List Move) :
    root.travel follow here (moves ++ more) =
      (root.travel follow here moves).bind fun middle => root.travel follow middle more := by
  induction moves generalizing here with
  | nil => rfl
  | cons move rest ih =>
    simp only [List.cons_append, travel]
    split
    · next inner start =>
      cases move with
      | stay => exact ih here
      | up => exact ih here.dropLast
      | into name =>
        simp only
        split
        · next target isLink =>
          exact absurd isLink (linkFree.at?_directory start).find?_ne_link
        · exact ih (here ++ [name])
        · rfl
    · rfl
    · rfl

end Travel

/-- Looking moves up is travelling, whatever following a link would do. -/
theorem exists_resolve_eq_travel (root : Listing) (links : Nat) :
    ∃ follow, ∀ here moves, root.resolve links here moves = root.travel follow here moves := by
  cases links with
  | zero => exact ⟨_, fun _ _ => by rw [resolve]⟩
  | succ links => exact ⟨_, fun _ _ => by rw [resolve]⟩

end Listing

end MarkdownLinks
