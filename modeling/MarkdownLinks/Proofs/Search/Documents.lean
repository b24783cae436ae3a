import MarkdownLinks.Proofs.Disk.Canonical
import MarkdownLinks.Proofs.Path.Order
import MarkdownLinks.Proofs.Root
import MarkdownLinks.Search

/-!
# The documents that a search finds

The search below a directory comes by exactly those lists of names that reach an entry and hold no
name that is left out, each of them once.  So the documents are in strictly ascending order.
-/

namespace MarkdownLinks

namespace Listing

theorem find?_eq_none_of_not_mem {name : Name} {listing : Listing} (absent : name ∉ listing.names) :
    listing.find? name = none := by
  induction listing <;> grind [find?, names]

theorem Distinct.at? {listing : Listing} {names : List Name} {entry : Entry}
    (distinct : listing.Distinct) (found : listing.at? names = some entry) : entry.Distinct := by
  induction names generalizing listing with
  | nil =>
    cases found
    exact distinct
  | cons name rest ih =>
    simp only [Listing.at?] at found
    split at found
    · next inner => exact ih (distinct.of_find? inner) found
    · next other =>
      split at found
      · cases found
        exact distinct.of_find? other
      · cases found
    · cases found

end Listing

namespace Search

/-- The names that lead from a directory to the entries that the search comes by. -/
def namesBelow (settings : Settings) : Listing → List (List Name)
  | .empty => []
  | .file name _ rest | .link name _ rest =>
    if settings.excludesName name then
      namesBelow settings rest
    else
      [name] :: namesBelow settings rest
  | .directory name entries rest =>
    if settings.excludesName name then
      namesBelow settings rest
    else
      [name] :: (namesBelow settings entries).map (name :: ·) ++ namesBelow settings rest

variable {settings : Settings} {disk : Disk}

theorem below_ofNames (settings : Settings) (base : List Name) (listing : Listing) :
    below settings (.ofNames base) listing =
      (namesBelow settings listing).map fun names => .ofNames (base ++ names) := by
  induction listing generalizing base with
  | empty => rfl
  | file name _ rest ih | link name _ rest ih =>
    simp only [below, namesBelow]
    split
    · exact ih base
    · simp only [List.map_cons, ih base, Path.child_ofNames]
  | directory name entries rest ihEntries ihRest =>
    simp only [below, namesBelow]
    split
    · exact ihRest base
    · rw [Path.child_ofNames, ihEntries, ihRest, List.map_append, List.map_cons, List.map_map]
      congr 3
      funext names
      simp

theorem head_mem_names {listing : Listing} {name : Name} {more : List Name}
    (found : (listing.at? (name :: more)).isSome) : name ∈ listing.names := by
  apply Decidable.byContradiction
  intro absent
  simp only [Listing.at?, Listing.find?_eq_none_of_not_mem absent] at found
  cases found

/-- The search comes by whatever is reached through names none of which is left out. -/
theorem mem_namesBelow_iff {listing : Listing} {names : List Name} (distinct : listing.Distinct) :
    names ∈ namesBelow settings listing ↔
      names ≠ [] ∧ (listing.at? names).isSome ∧
        ∀ name ∈ names, settings.excludesName name = false := by
  induction listing generalizing names with
  | empty => cases names <;> simp [namesBelow, Listing.at?, Listing.find?]
  | file name _ rest ih | link name _ rest ih =>
    rcases distinct with ⟨absent, distinct⟩
    have inRest := @ih names distinct
    simp only [namesBelow]
    cases names with
    | nil => split <;> simp [inRest]
    | cons first more =>
      by_cases same : name = first
      · subst same
        have notLater : name :: more ∉ namesBelow settings rest := by
          intro mem
          exact absent (head_mem_names (inRest.1 mem).2.1)
        cases more <;> split <;> simp_all [Listing.at?, Listing.find?]
      · split <;> simp_all [Listing.at?, Listing.find?, Ne.symm same]
  | directory name entries rest ihEntries ihRest =>
    rcases distinct with ⟨absent, entriesDistinct, distinct⟩
    have inRest := @ihRest names distinct
    simp only [namesBelow]
    cases names with
    | nil => split <;> simp [inRest]
    | cons first more =>
      have inEntries := @ihEntries more entriesDistinct
      by_cases same : name = first
      · subst same
        have notLater : name :: more ∉ namesBelow settings rest := by
          intro mem
          exact absent (head_mem_names (inRest.1 mem).2.1)
        have here : Listing.at? (.directory name entries rest) (name :: more) =
            entries.at? more := by
          simp [Listing.at?, Listing.find?]
        simp only [here]
        clear inRest ihRest ihEntries
        cases more with
        | nil => split <;> simp_all [Listing.at?]
        | cons next others => split <;> simp_all
      · split <;> simp_all [Listing.at?, Listing.find?, Ne.symm same]

theorem nodup_namesBelow {listing : Listing} (distinct : listing.Distinct) :
    (namesBelow settings listing).Nodup := by
  induction listing with
  | empty => exact List.nodup_nil
  | file name _ rest ih | link name _ rest ih =>
    rcases distinct with ⟨absent, distinct⟩
    simp only [namesBelow]
    split
    · exact ih distinct
    · apply List.nodup_cons.2
      constructor
      · intro mem
        rcases (mem_namesBelow_iff distinct).1 mem with ⟨-, reached, -⟩
        exact absent (head_mem_names reached)
      · exact ih distinct
  | directory name entries rest ihEntries ihRest =>
    rcases distinct with ⟨absent, entriesDistinct, distinct⟩
    simp only [namesBelow]
    split
    · exact ihRest distinct
    · have notLater : ∀ more, name :: more ∉ namesBelow settings rest := by
        intro more mem
        exact absent (head_mem_names ((mem_namesBelow_iff distinct).1 mem).2.1)
      have notEmpty : [] ∉ namesBelow settings entries := by
        intro mem
        exact ((mem_namesBelow_iff entriesDistinct).1 mem).1 rfl
      have below : ((namesBelow settings entries).map (name :: ·)).Nodup := by
        refine List.Pairwise.map (name :: ·) ?_ (ihEntries entriesDistinct)
        intro left right different same
        exact different (List.cons.inj same).2
      simp only [List.cons_append, List.nodup_cons, List.nodup_append]
      refine ⟨?_, below, ihRest distinct, ?_⟩
      · simp [notEmpty, notLater]
      · rintro _ inEntries _ inRest rfl
        rcases List.mem_map.1 inEntries with ⟨more, -, rfl⟩
        exact notLater more inRest

section Documents

variable {base : List Name} {entries : Listing}

theorem mem_documents_iff {p : Path}
    (root : disk.entry (.ofNames base) = .ok (.directory entries)) :
    p ∈ documents disk settings (.ofNames base) ↔
      isDocument disk settings p = true ∧
        ∃ names ∈ namesBelow settings entries, p = .ofNames (base ++ names) := by
  have rootIsNone : isDocument disk settings (.ofNames base) = false := by
    simp [isDocument, Disk.isFile, root]
  simp only [documents, List.mem_mergeSort, List.mem_filter, visited, root, List.mem_cons,
    below_ofNames, List.mem_map]
  constructor
  · rintro ⟨rfl | ⟨names, mem, rfl⟩, isDocument⟩
    · simp only [rootIsNone] at isDocument
      cases isDocument
    · exact ⟨isDocument, names, mem, rfl⟩
  · rintro ⟨isDocument, names, mem, rfl⟩
    exact ⟨.inr ⟨names, mem, rfl⟩, isDocument⟩

theorem nodup_documents (root : disk.entry (.ofNames base) = .ok (.directory entries)) :
    (documents disk settings (.ofNames base)).Nodup := by
  rcases Disk.at?_of_entry root with ⟨names, -, reached⟩
  have distinct : entries.Distinct := disk.distinct.at? reached
  have belowNodup : (below settings (.ofNames base) entries).Nodup := by
    simp only [below_ofNames]
    refine List.Pairwise.map (fun names => Path.ofNames (base ++ names)) ?_
      (nodup_namesBelow distinct)
    intro left right different same
    exact different (List.append_cancel_left (Path.ofNames_injective same))
  have rootNotBelow : Path.ofNames base ∉ below settings (.ofNames base) entries := by
    simp only [below_ofNames]
    intro mem
    rcases List.mem_map.1 mem with ⟨names, namesMem, same⟩
    have nothing : names = [] := by simpa using Path.ofNames_injective same
    exact ((mem_namesBelow_iff distinct).1 namesMem).1 nothing
  simp only [documents, visited, root]
  apply (List.mergeSort_perm _ _).nodup_iff.2
  exact (List.nodup_cons.2 ⟨rootNotBelow, belowNodup⟩).filter _

theorem exists_names_of_mem_documents {p : Path}
    (root : disk.entry (.ofNames base) = .ok (.directory entries))
    (mem : p ∈ documents disk settings (.ofNames base)) :
    ∃ names, names ≠ [] ∧ p = .ofNames (base ++ names) ∧ isDocument disk settings p = true := by
  rcases Disk.at?_of_entry root with ⟨_, -, reached⟩
  have distinct : entries.Distinct := disk.distinct.at? reached
  rcases (mem_documents_iff root).1 mem with ⟨isDocument, names, namesMem, written⟩
  exact ⟨names, ((mem_namesBelow_iff distinct).1 namesMem).1, written, isDocument⟩

theorem isTidy_of_mem_documents {p : Path}
    (root : disk.entry (.ofNames base) = .ok (.directory entries))
    (mem : p ∈ documents disk settings (.ofNames base)) : p.IsTidy := by
  rcases (mem_documents_iff root).1 mem with ⟨-, names, -, rfl⟩
  exact Path.isTidy_ofNames _

/-- Each document comes before all later ones, and no later one has the same components. -/
theorem pairwise_documents (root : disk.entry (.ofNames base) = .ok (.directory entries)) :
    (documents disk settings (.ofNames base)).Pairwise fun p q => q.le p = false := by
  have ascending : (documents disk settings (.ofNames base)).Pairwise fun p q => p.le q = true := by
    apply List.pairwise_mergeSort
    · intro p q r first second
      exact Path.le_trans first second
    · intro p q
      simpa using Path.le_total p q
  have different : (documents disk settings (.ofNames base)).Nodup := nodup_documents root
  apply (ascending.and different).imp_of_mem
  rintro p q pMem qMem ⟨before, notSame⟩
  apply Decidable.byContradiction
  intro notBelow
  have after : q.le p = true := by simpa using notBelow
  exact notSame ((isTidy_of_mem_documents root pMem).eq_of_components_eq
    (isTidy_of_mem_documents root qMem) (Path.components_eq_of_le_of_le before after))

end Documents

section Canonical

variable {disk : Disk} {settings : Settings} {given root document : Path}
  (canonical : canonicalRoot disk given = .ok root)
  (mem : document ∈ documents disk settings root)

include canonical mem

theorem isTidy_of_canonicalRoot : document.IsTidy := by
  rcases exists_names_of_canonicalRoot canonical with ⟨base, entries, rfl, isDirectory⟩
  exact isTidy_of_mem_documents isDirectory mem

theorem isFile_of_canonicalRoot : disk.isFile document = true := by
  rcases exists_names_of_canonicalRoot canonical with ⟨base, entries, rfl, isDirectory⟩
  rcases exists_names_of_mem_documents isDirectory mem with ⟨names, -, -, isDocument⟩
  exact (Bool.and_eq_true_iff.1 isDocument).2

end Canonical

end Search

end MarkdownLinks
