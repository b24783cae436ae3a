import MarkdownLinks.Heading
import MarkdownLinks.Proofs.Link.Lines

/-!
# Texts joined by a newline

Links and headings never reach over the end of a line.  A text with a newline in it has the links of
the part before it, then those of the part after it with their lines counted on, and it has the slugs
of both parts.  With so many lines that their numbers start over, the count goes on there as well.
-/

namespace MarkdownLinks

theorem scan_append_newline (a b : Text) :
    Link.scan (a ++ '\n' :: b) =
      Link.scan a ++ (Link.scan b).map (Link.below (a.count '\n' + 1)) := by
  have counted : (lines a).length = a.count '\n' + 1 := length_splitAtEach a
  rw [Link.scan, lines, splitAtEach_append, Link.onLines_append, Link.onLines_add, ← counted]
  rfl

theorem Link.below_of_lt {count : Nat} {link : Link} (few : link.line + count < UInt32.size) :
    link.below count = { link with line := link.line + count } := by
  rw [below, lineNumber_of_lt few]

theorem scan_append_newline_of_lt {a b : Text} (few : (lines a).length + (lines b).length < UInt32.size) :
    Link.scan (a ++ '\n' :: b) =
      Link.scan a ++
        (Link.scan b).map fun link => { link with line := link.line + (a.count '\n' + 1) } := by
  have counted : (lines a).length = a.count '\n' + 1 := length_splitAtEach a
  rw [scan_append_newline, List.append_cancel_left_eq]
  apply List.map_congr_left
  intro link mem
  have inText := Link.line_lt_of_mem_onLines (by omega) mem
  exact Link.below_of_lt (by omega)

theorem slugs_append_newline (a b slug : Text) :
    slug ∈ Heading.slugs (a ++ '\n' :: b) ↔ slug ∈ Heading.slugs a ∨ slug ∈ Heading.slugs b := by
  simp only [Heading.slugs, Heading.contents, lines, splitAtEach_append, List.filterMap_append,
    List.map_append, TextSet.mem_ofList, List.mem_append]

/-- What is found in a text with a newline in it is what is found before the newline and after it. -/
theorem scan_slugs_append_newline (a b : Text) :
    Link.scan (a ++ '\n' :: b) =
        Link.scan a ++ (Link.scan b).map (Link.below (a.count '\n' + 1)) ∧
      ((lines a).length + (lines b).length < UInt32.size → Link.scan (a ++ '\n' :: b) =
        Link.scan a ++
          (Link.scan b).map fun link => { link with line := link.line + (a.count '\n' + 1) }) ∧
      ∀ slug, slug ∈ Heading.slugs (a ++ '\n' :: b) ↔
        slug ∈ Heading.slugs a ∨ slug ∈ Heading.slugs b :=
  ⟨scan_append_newline a b, scan_append_newline_of_lt, slugs_append_newline a b⟩

end MarkdownLinks
