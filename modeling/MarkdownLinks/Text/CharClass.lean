import MarkdownLinks.Text.Basic

/-!
# Classes of characters

A class of characters is given by ranges of code points, so that the classes of the Unicode
standard are plain data that can be searched and checked.
-/

namespace MarkdownLinks

/-- A class of characters, as inclusive ranges of code points in ascending order. -/
structure CharClass where
  ranges : List (Nat × Nat)

namespace CharClass

def covers (cls : CharClass) (code : Nat) : Bool :=
  cls.ranges.any fun (first, last) => first ≤ code && code ≤ last

def contains (cls : CharClass) (c : Char) : Bool :=
  cls.covers c.toNat

end CharClass

end MarkdownLinks
