import MarkdownLinks.Text.CharClass

/-!
# Blanks

The characters with the Unicode property `White_Space`.
-/

namespace MarkdownLinks

/-- The code points with the property `White_Space`. -/
def whiteSpace : CharClass where
  ranges := [
    (0x9, 0xD), (0x20, 0x20), (0x85, 0x85), (0xA0, 0xA0), (0x1680, 0x1680), (0x2000, 0x200A),
    (0x2028, 0x2029), (0x202F, 0x202F), (0x205F, 0x205F), (0x3000, 0x3000)]

def isBlank (c : Char) : Bool :=
  whiteSpace.contains c

def trimBlank (t : Text) : Text :=
  trimBoth isBlank t

end MarkdownLinks
