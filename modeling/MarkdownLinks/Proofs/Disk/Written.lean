import MarkdownLinks.Proofs.Disk.Canonical
import MarkdownLinks.Proofs.Path.Ending

/-!
# Looking up paths that are put together

A path that is put together from components is looked up by the moves of these components.
-/

namespace MarkdownLinks

namespace Disk

variable {disk : Disk} {steps : List Component}

theorem holdsZero_ofComponents :
    holdsZero (.ofComponents (.root :: steps)) = false ↔ ∀ c ∈ steps, (0 : UInt8) ∉ c.bytes := by
  have notSlash : (0 : UInt8) ≠ slash := by decide
  simp [holdsZero, Path.ofComponents, mem_intercalate_iff notSlash, notSlash]

/-- Whatever following a link would do, the root and the components after it are looked up by their
moves. -/
theorem exists_locate_ofComponents (disk : Disk) :
    ∃ follow, ∀ steps : List Component, (∀ c ∈ steps, c.IsStep) →
      (∀ c ∈ steps, (0 : UInt8) ∉ c.bytes) →
      disk.locate (.ofComponents (.root :: steps)) =
        disk.root.travel follow [] (steps.map Component.move) := by
  rcases Listing.exists_resolve_eq_travel disk.root maxLinks with ⟨follow, travels⟩
  refine ⟨follow, ?_⟩
  intro steps areSteps noZero
  rw [locate_of_isAbsolute (Path.isAbsolute_ofComponents steps) (holdsZero_ofComponents.2 noZero),
    travels]
  by_cases alone : steps = []
  · subst alone
    rfl
  · rw [Path.moves_ofComponents areSteps alone, Listing.travel_stay (Listing.at?_nil _)]

theorem noZero_of_contains (contained : disk.contains (.ofComponents (.root :: steps)) = true) :
    ∀ c ∈ steps, (0 : UInt8) ∉ c.bytes := by
  rcases contains_iff.1 contained with ⟨entry, found⟩
  rcases at?_of_entry found with ⟨names, located, -⟩
  exact holdsZero_ofComponents.1 (locate_eq_resolve located).1

theorem contains_root (disk : Disk) : disk.contains (.ofComponents [.root]) = true := by
  apply contains_iff.2
  refine ⟨.directory disk.root, entry_eq_ok_iff.2 ⟨by decide, [], ?_, rfl⟩⟩
  rcases exists_locate_ofComponents disk with ⟨follow, locates⟩
  exact locates [] (by simp) (by simp)

/-- Where an entry of a directory is found, the directory above can be found from there, too. -/
theorem LinkFree.contains_parent {outer : List Component} {name : Name} (linkFree : disk.LinkFree)
    (areSteps : ∀ c ∈ outer, c.IsStep) (longEnough : 2 ≤ name.bytes.length)
    (contained : disk.contains (.ofComponents (.root :: (outer ++ [.name name]))) = true) :
    disk.contains (.ofComponents (.root :: (outer ++ [.parent]))) = true := by
  rcases exists_locate_ofComponents disk with ⟨follow, locates⟩
  rcases Path.exists_front (.root :: outer) with ⟨front, -, bytes⟩
  simp only [List.cons_append] at bytes
  have noZero := noZero_of_contains contained
  have outerNoZero : ∀ c ∈ outer, (0 : UInt8) ∉ c.bytes := (List.forall_mem_append.1 noZero).1
  have withLast : ∀ last : Component, last.IsStep → ∀ c ∈ outer ++ [last], c.IsStep :=
    fun last isStep => List.forall_mem_append.2 ⟨areSteps, List.forall_mem_singleton.2 isStep⟩
  rcases contains_iff.1 contained with ⟨entry, found⟩
  rcases entry_eq_ok_iff.1 found with ⟨short, names, located, -⟩
  -- The way to the entry leads to its directory first, and `..` goes up from there.
  rw [locates _ (withLast (.name name) trivial) noZero, List.map_append,
    linkFree.travel_append] at located
  cases arrived : disk.root.travel follow [] (outer.map Component.move) with
  | error cause =>
    rw [arrived] at located
    cases located
  | ok middle =>
    rw [arrived, Except.bind] at located
    rcases Listing.exists_directory_of_travel_cons located with ⟨entries, start⟩
    rcases Listing.exists_directory_dropLast start with ⟨parent, reached⟩
    apply contains_iff.2
    refine ⟨.directory parent, entry_eq_ok_iff.2 ⟨?_, middle.dropLast, ?_, reached⟩⟩
    · rw [bytes] at short ⊢
      simp only [List.length_append, List.length_cons, Component.bytes, List.length_nil] at short ⊢
      omega
    · have aboveNoZero : ∀ c ∈ outer ++ [.parent], (0 : UInt8) ∉ c.bytes :=
        List.forall_mem_append.2 ⟨outerNoZero, by decide⟩
      rw [locates _ (withLast .parent trivial) aboveNoZero, List.map_append,
        linkFree.travel_append, arrived]
      simp only [Except.bind, List.map_singleton, Component.move]
      rw [Listing.travel_up start, Listing.travel]

end Disk

end MarkdownLinks
