import MarkdownLinks.Text.Blank

/-!
# Titles of links

A link's target may be followed by a title: white space and a text in quotes, up to the end.
-/

namespace MarkdownLinks

namespace Title

/-- The target without a title in the given quotes, and without the white space before it.  The
title is found from the end: it starts at the last quote before the closing one, and white space
must stand before that. -/
def strip (quote : Char) (target : Text) : Text :=
  match target.reverse with
  | [] => target
  | last :: beforeLast =>
    if last = quote then
      match beforeLast.dropWhile (· != quote) with
      | _ :: before =>
        if before.head?.any isBlank then (before.dropWhile isBlank).reverse else target
      | [] => target
    else
      target

/-- The target without a title in double quotes, then without one in single quotes, and without
white space at its ends. -/
def stripAll (target : Text) : Text :=
  trimBlank (strip '\'' (strip '"' target))

end Title

end MarkdownLinks
