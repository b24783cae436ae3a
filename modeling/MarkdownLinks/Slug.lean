import MarkdownLinks.Text.Blank
import MarkdownLinks.Text.Lowercase
import MarkdownLinks.Text.Word

/-!
# Slugs

The slug of a heading is the fragment by which links refer to it, such as `#getting-started`.
-/

namespace MarkdownLinks

namespace Slug

/-- Whether a character is kept in a slug, as itself or as a hyphen. -/
def keeps (c : Char) : Bool :=
  isWordChar c || isBlank c || c == '-'

/-- The words of a heading joined by hyphens: the heading in lower case, without punctuation, with
each run of blanks and each run of hyphens as one hyphen, and without hyphens at its ends. -/
def words (heading : Text) : Text :=
  let kept := (lowercase heading).filter keeps
  let hyphenated := replaceRuns isBlank '-' kept
  trimBoth (· == '-') (replaceRuns (· == '-') '-' hyphenated)

/-- The slug of a heading's text, with its leading `#`. -/
def ofHeading (heading : Text) : Text :=
  '#' :: words heading

end Slug

end MarkdownLinks
