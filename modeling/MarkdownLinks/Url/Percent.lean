import MarkdownLinks.Text.Utf8

/-!
# Percent escapes

A byte may be written as `%` and two hexadecimal digits.  A `%` that is not followed by two digits
stands for itself.
-/

namespace MarkdownLinks

namespace Percent

/-- The value of a hexadecimal digit, in either case. -/
def digit? (b : UInt8) : Option UInt8 :=
  if 0x30 ≤ b ∧ b ≤ 0x39 then some (b - 0x30)
  else if 0x41 ≤ b ∧ b ≤ 0x46 then some (b - 0x41 + 10)
  else if 0x61 ≤ b ∧ b ≤ 0x66 then some (b - 0x61 + 10)
  else none

/-- The byte that two hexadecimal digits stand for. -/
def byte? (high low : UInt8) : Option UInt8 := do
  let h ← digit? high
  let l ← digit? low
  return h * 16 + l

def decodeBytes : Bytes → Bytes
  | a :: b :: c :: rest =>
    match if a = 0x25 then byte? b c else none with
    | some byte => byte :: decodeBytes rest
    | none => a :: decodeBytes (b :: c :: rest)
  | short => short

/-- The text with every escape decoded; bytes that are no UTF-8 afterwards become U+FFFD. -/
def decode (t : Text) : Text :=
  Utf8.decodeLossy (decodeBytes (Utf8.encode t))

end Percent

end MarkdownLinks
