import MarkdownLinks.Text.Number
import MarkdownLinks.Url.Percent

/-!
# Link targets

The target of a link is external if it has one of the schemes that lead off the file system, a
fragment of the document itself if it starts with `#`, and otherwise the path of a file with an
optional fragment.
-/

namespace MarkdownLinks

namespace Url

def isLetter (c : Char) : Bool :=
  ('a' ≤ c && c ≤ 'z') || ('A' ≤ c && c ≤ 'Z')

/-- Whether a character may follow the first one of a scheme. -/
def isSchemeChar (c : Char) : Bool :=
  isLetter c || isDigit c || c == '+' || c == '-' || c == '.'

/-- An ASCII letter in lower case; other characters are left alone. -/
def lowerAscii (c : Char) : Char :=
  if 'A' ≤ c ∧ c ≤ 'Z' then Char.ofNat (c.toNat + 32) else c

/-- The scheme that a URL starts with, in lower case: a letter, then letters, digits, `+`, `-` and
`.`, up to the first colon. -/
def scheme? (url : Text) : Option Text := do
  let (before, _) ← splitAtFirst? ':' url
  let first ← before.head?
  if isLetter first && before.all isSchemeChar then
    return before.map lowerAscii
  else
    none

/-- The schemes that lead off the file system. -/
def externalSchemes : List Text :=
  ["http".toList, "https".toList, "mailto".toList, "ftp".toList]

/-- The schemes of the URLs that a probe can ask for. -/
def probedSchemes : List Text :=
  ["http".toList, "https".toList]

/-- The part before the first `#`, and the fragment from there on, with its `#`. -/
def splitFragment (url : Text) : Text × Option Text :=
  match splitAtFirst? '#' url with
  | some (file, fragment) => (file, some ('#' :: fragment))
  | none => (url, none)

/-- What the target of a link refers to. -/
inductive Target where
  | external (scheme : Text)
  | sameDocument
  | file (path : Text) (fragment : Option Text)

/-- What a URL refers to; the path of a file is percent-decoded. -/
def target (url : Text) : Target :=
  match (scheme? url).filter externalSchemes.contains with
  | some scheme => .external scheme
  | none =>
    if url.head? = some '#' then
      .sameDocument
    else
      let (file, fragment) := splitFragment url
      .file (Percent.decode file) fragment

end Url

end MarkdownLinks
