import MarkdownLinks.Proofs.Path.Names

/-!
# The order of paths

Paths are ordered by their components, which is a total order up to the way in which the components
are written.  The order of two paths below a directory does not depend on the directory.
-/

namespace MarkdownLinks

namespace Component

theorem key_injective {c d : Component} (same : c.key = d.key) : c = d := by
  cases c with
  | name n =>
    cases d with
    | name m =>
      simp only [key, List.cons.injEq, true_and] at same
      cases n
      cases m
      simpa using same
    | _ => simp [key] at same
  | _ => cases d <;> simp_all [key]

end Component

namespace Path

theorem components_eq_of_key_eq {p q : Path} (same : p.key = q.key) :
    p.components = q.components := by
  unfold key at same
  generalize p.components = left at same
  generalize q.components = right at same
  induction left generalizing right with
  | nil => simpa [eq_comm] using same
  | cons c rest ih =>
    cases right with
    | nil => simp at same
    | cons d more =>
      simp only [List.map_cons, List.cons.injEq] at same
      simp only [Component.key_injective same.1, ih more same.2]

theorem le_iff {p q : Path} : p.le q = true ↔ p.key ≤ q.key := by
  simp [le]

theorem le_total (p q : Path) : p.le q = true ∨ q.le p = true := by
  simp only [le_iff]
  exact List.le_total p.key q.key

theorem le_trans {p q r : Path} (first : p.le q = true) (second : q.le r = true) :
    p.le r = true := by
  simp only [le_iff] at first second ⊢
  exact List.le_trans first second

theorem components_eq_of_le_of_le {p q : Path} (first : p.le q = true) (second : q.le p = true) :
    p.components = q.components := by
  simp only [le_iff] at first second
  exact components_eq_of_key_eq (List.le_antisymm first second)

/-- The order of paths below a directory is that of what comes after the directory. -/
theorem le_ofNames_append (base names others : List Name) :
    (ofNames (base ++ names)).le (ofNames (base ++ others)) = (below names).le (below others) := by
  rw [Bool.eq_iff_iff, le_iff, le_iff]
  simp only [key, components_ofNames, components_below, List.map_append, List.map_cons,
    ← List.cons_append]
  generalize Component.key .root :: (base.map Component.name).map Component.key = front
  induction front with
  | nil => rfl
  | cons part rest ih =>
    simp only [List.cons_append, List.cons_le_cons_iff]
    simpa [List.lt_irrefl] using ih

end Path

end MarkdownLinks
