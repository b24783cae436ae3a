import MarkdownLinks.Proofs.Path.Names

/-!
# Relative paths between files

The way from the directory of one file to another file goes up to the directory that they share,
and down from there.
-/

namespace MarkdownLinks

namespace Path

/-- The relative path that goes up a number of times, and down through names from there. -/
def way (up : Nat) (down : List Name) : Path :=
  ofComponents (List.replicate up .parent ++ down.map .name)

section Way

variable {up : Nat} {down : List Name}

theorem isStep_way (up : Nat) (down : List Name) :
    ∀ c ∈ List.replicate up Component.parent ++ down.map .name, c.IsStep :=
  Position.isStep_fromStart up down

theorem isAbsolute_way : (way up down).isAbsolute = false :=
  isAbsolute_steps (isStep_way up down)

theorem moves_way (nonempty : down ≠ []) :
    (way up down).moves = List.replicate up .up ++ down.map .into := by
  rw [way, moves_steps (isStep_way up down) (by simp [nonempty]), List.map_append,
    List.map_replicate, List.map_map]
  rfl

theorem bytes_way : (way up down).bytes =
    [slash].intercalate (List.replicate up [dot, dot] ++ down.map Name.bytes) := by
  simp only [way, ofComponents_steps (isStep_way up down), List.map_append,
    List.map_replicate, List.map_map]
  rfl

theorem bytes_way_ne_nil (nonempty : down ≠ []) : (way up down).bytes ≠ [] := by
  intro isEmpty
  have stays : Move.stay ∈ (way up down).moves := by
    simp only [moves, segments, isEmpty]
    exact List.mem_singleton.2 rfl
  simp only [moves_way nonempty] at stays
  simp at stays

end Way

/-- The steps from a directory to a file: `..` for each component that they do not share, then the
components of the file that are left. -/
def stepsTo : List Component → List Component → List Component
  | start :: above, goal :: below =>
    if start = goal then stepsTo above below
    else List.replicate (start :: above).length .parent ++ goal :: below
  | above, below => List.replicate above.length .parent ++ below

/-- The relative path from the directory of one file to another file. -/
def relative (source target : Path) : Path :=
  ofComponents (stepsTo source.components.dropLast target.components)

theorem exists_stepsTo_names (outer names : List Name) :
    ∃ common up down : List Name, outer = common ++ up ∧ names = common ++ down ∧
      stepsTo (outer.map .name) (names.map .name) =
        List.replicate up.length .parent ++ down.map .name := by
  induction outer generalizing names with
  | nil => exact ⟨[], [], names, rfl, rfl, by cases names <;> rfl⟩
  | cons name rest ih =>
    cases names with
    | nil => exact ⟨[], name :: rest, [], rfl, rfl, by simp [stepsTo]⟩
    | cons other more =>
      by_cases same : name = other
      · subst same
        rcases ih more with ⟨common, up, down, rfl, rfl, steps⟩
        exact ⟨name :: common, up, down, rfl, rfl, by simpa [stepsTo] using steps⟩
      · exact ⟨[], name :: rest, other :: more, rfl, rfl, by simp [stepsTo, same]⟩

/-- The way between files goes up to names that both sides start with, and down from there. -/
theorem exists_relative_eq_way (outer : List Name) (last : Name) (names : List Name) :
    ∃ common up down : List Name, outer = common ++ up ∧ names = common ++ down ∧
      relative (ofNames (outer ++ [last])) (ofNames names) = way up.length down := by
  rcases exists_stepsTo_names outer names with ⟨common, up, down, outerEq, namesEq, steps⟩
  refine ⟨common, up, down, outerEq, namesEq, ?_⟩
  have directory : (ofNames (outer ++ [last])).components.dropLast = .root :: outer.map .name := by
    simp only [components_ofNames, List.map_append, List.map_singleton, ← List.cons_append,
      List.dropLast_concat]
  rw [relative, directory, components_ofNames, stepsTo, if_pos rfl, steps, way]

end Path

end MarkdownLinks
