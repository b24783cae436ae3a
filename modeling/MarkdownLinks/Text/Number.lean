import MarkdownLinks.Text.Basic

/-!
# Numbers

Numbers as texts of digits, written in decimal and read in any base up to sixteen.
-/

namespace MarkdownLinks

def decimal (n : Nat) : Text :=
  Nat.toDigits 10 n

/-- An integer in decimal digits, with a hyphen before a negative one. -/
def signedDecimal : Int → Text
  | .ofNat n => decimal n
  | .negSucc n => '-' :: decimal (n + 1)

/-- The value of a digit, up to the hexadecimal ones in either case. -/
def digit? (c : Char) : Option Nat :=
  if '0' ≤ c ∧ c ≤ '9' then some (c.toNat - '0'.toNat)
  else if 'a' ≤ c ∧ c ≤ 'f' then some (c.toNat - 'a'.toNat + 10)
  else if 'A' ≤ c ∧ c ≤ 'F' then some (c.toNat - 'A'.toNat + 10)
  else none

/-- The number that digits stand for in a base, if each of them is a digit of the base. -/
def number? (base : Nat) (digits : Text) : Option Nat :=
  digits.foldlM
    (fun value c => do
      let digit ← digit? c
      if digit < base then some (value * base + digit) else none)
    0

def isDigit (c : Char) : Bool :=
  '0' ≤ c && c ≤ '9'

end MarkdownLinks
