import MarkdownLinks.Link.Basic
import MarkdownLinks.Proofs.Text.Pieces

/-!
# The lines of links

The links of a text are found line by line.  As long as the numbers of the lines do not start over,
they never go down, and more lines before a text only make them greater.
-/

namespace MarkdownLinks

namespace Link

theorem lineNumber_of_lt {count : Nat} (few : count < UInt32.size) : lineNumber count = count :=
  Nat.mod_eq_of_lt few

theorem line_of_mem_onLine {line : Nat} {t : Text} {link : Link} (mem : link ∈ onLine line t) :
    link.line = line := by
  rcases List.mem_map.1 mem with ⟨found, -, rfl⟩
  rfl

section Pairwise

variable {first : Nat} {texts : List Text}

theorem line_lt_of_mem_onLines {link : Link} (few : first + texts.length ≤ UInt32.size)
    (mem : link ∈ onLines first texts) : link.line < first + texts.length := by
  induction texts generalizing first with
  | nil => cases mem
  | cons t rest ih =>
    rw [List.length_cons] at few ⊢
    rw [onLines, lineNumber_of_lt (by omega), List.mem_append] at mem
    rcases mem with here | later
    · have isFirst := line_of_mem_onLine here
      omega
    · have next := ih (by omega) later
      omega

end Pairwise

/-- On a text of one line, all links stand on the first line. -/
theorem scan_of_not_mem {t : Text} (oneLine : '\n' ∉ t) : scan t = onLine 1 t := by
  simp only [scan, lines, splitAtEach_of_not_mem oneLine, onLines, List.append_nil]
  rfl

theorem onLines_eq_flatMap (first : Nat) (texts : List Text) :
    onLines first texts =
      (texts.zipIdx first).flatMap fun (t, line) => onLine (lineNumber line) t := by
  induction texts generalizing first with
  | nil => rfl
  | cons t rest ih =>
    rw [onLines, ih (first + 1), List.zipIdx_cons, List.flatMap_cons]

theorem onLines_append (first : Nat) (texts more : List Text) :
    onLines first (texts ++ more) = onLines first texts ++ onLines (first + texts.length) more := by
  simp only [onLines_eq_flatMap, List.zipIdx_append, List.flatMap_append]

/-- The link in a text with more lines before it. -/
def below (count : Nat) (link : Link) : Link :=
  { link with line := lineNumber (link.line + count) }

theorem onLine_lineNumber_add (line count : Nat) (t : Text) :
    onLine (lineNumber (line + count)) t = (onLine (lineNumber line) t).map (below count) := by
  simp only [onLine, List.map_map, Function.comp_def, below, lineNumber, Nat.mod_add_mod]

theorem onLines_add (first count : Nat) (texts : List Text) :
    onLines (first + count) texts = (onLines first texts).map (below count) := by
  induction texts generalizing first with
  | nil => rfl
  | cons t rest ih =>
    rw [onLines, onLines, List.map_append, onLine_lineNumber_add, ← ih (first + 1),
      Nat.add_right_comm]

end Link

end MarkdownLinks
