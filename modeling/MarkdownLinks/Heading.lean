import MarkdownLinks.Slug
import MarkdownLinks.Text.LineEnding
import MarkdownLinks.Text.Set

/-!
# Headings

A heading is a line of one to six `#`, white space and a content that is not empty.  A content of
white space alone counts when there is enough of it to leave one character over.
-/

namespace MarkdownLinks

namespace Heading

def maxLevel : Nat := 6

/-- The content of a line that is a heading. -/
def content? (line : Text) : Option Text :=
  let marks := line.takeWhile (· == '#')
  let after := line.dropWhile (· == '#')
  let blanks := after.takeWhile isBlank
  if marks.length = 0 ∨ maxLevel < marks.length then
    none
  else
    match after.dropWhile isBlank with
    | [] => if 2 ≤ blanks.length then some (blanks.drop (blanks.length - 1)) else none
    | c :: rest => if blanks.isEmpty then none else some (c :: rest)

def contents (text : Text) : List Text :=
  (lines text).filterMap content?

def slugs (text : Text) : TextSet :=
  .ofList ((contents text).map Slug.ofHeading)

end Heading

end MarkdownLinks
