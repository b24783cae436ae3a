import MarkdownLinks.Proofs.Text.Pieces
import MarkdownLinks.Text.LineEnding

/-!
# Newlines written with carriage returns

A text whose newlines are written as a carriage return and a newline has the same lines, but for a
carriage return at the end of each line that a newline ends.
-/

namespace MarkdownLinks

/-- The text with every newline written as a carriage return and a newline. -/
def LineEnding.toCrLf (t : Text) : Text :=
  t.flatMap fun c => if c = '\n' then ['\r', '\n'] else [c]

namespace LineEnding

theorem toCrLf_cons_newline (rest : Text) : toCrLf ('\n' :: rest) = '\r' :: '\n' :: toCrLf rest :=
  rfl

theorem toCrLf_cons_of_ne {c : Char} (notNewline : c ≠ '\n') (rest : Text) :
    toCrLf (c :: rest) = c :: toCrLf rest := by
  simp [toCrLf, notNewline]

/-- Each line but the last one gets a carriage return. -/
theorem exists_lines_toCrLf (t : Text) :
    ∃ ended last, lines t = ended ++ [last] ∧
      lines (toCrLf t) = ended.map (· ++ ['\r']) ++ [last] := by
  induction t with
  | nil => exact ⟨[], [], rfl, rfl⟩
  | cons c rest ih =>
    rcases ih with ⟨ended, last, restEq, crLfEq⟩
    simp only [lines] at restEq crLfEq
    by_cases isNewline : c = '\n'
    · subst isNewline
      refine ⟨[] :: ended, last, ?_, ?_⟩
      · simp [lines, splitAtEach, restEq]
      · simp [lines, toCrLf_cons_newline, splitAtEach, crLfEq]
    · cases ended with
      | nil =>
        refine ⟨[], c :: last, ?_, ?_⟩
        · simp [lines, splitAtEach, isNewline, restEq]
        · simp [lines, toCrLf_cons_of_ne isNewline, splitAtEach, isNewline, crLfEq]
      | cons first more =>
        refine ⟨(c :: first) :: more, last, ?_, ?_⟩
        · simp [lines, splitAtEach, isNewline, restEq]
        · simp [lines, toCrLf_cons_of_ne isNewline, splitAtEach, isNewline, crLfEq]

end LineEnding

end MarkdownLinks
