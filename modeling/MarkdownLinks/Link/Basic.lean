import MarkdownLinks.Link.Title
import MarkdownLinks.Text.LineEnding

/-!
# Inline links

An inline link is written `[text](target)`.  Whatever has this shape on one line is a link, also
inside code; the links of a line are found from left to right and do not overlap.
-/

namespace MarkdownLinks

/-- A link as it occurs in a document. -/
structure Link where
  /-- The number of the line that it stands on. -/
  line : Nat
  text : Text
  /-- The target as written, without its title. -/
  url : Text
  deriving DecidableEq

namespace Link

/-- What stands in the brackets of a link, and the rest of the line after it. -/
structure Match where
  text : Text
  target : Text
  rest : Text

/-- The link that starts at the beginning of a line. -/
def matchAt? : Text → Option Match
  | '[' :: afterOpen =>
    match afterOpen.dropWhile (· != ']') with
    | ']' :: '(' :: afterParen =>
      match afterParen.dropWhile (· != ')') with
      | _ :: rest =>
        let text := afterOpen.takeWhile (· != ']')
        let target := afterParen.takeWhile (· != ')')
        if text.isEmpty || target.isEmpty then none else some ⟨text, target, rest⟩
      | [] => none
    | _ => none
  | _ => none

theorem length_dropWhile_le {α : Type} (p : α → Bool) (l : List α) :
    (l.dropWhile p).length ≤ l.length :=
  (List.dropWhile_sublist p).length_le

theorem matchAt?_rest_length {t : Text} {found : Match} (hit : matchAt? t = some found) :
    found.rest.length < t.length := by
  unfold matchAt? at hit
  split at hit
  · next afterOpen =>
    split at hit
    · next afterParen closeAt =>
      split at hit
      · next rest endAt =>
        simp only at hit
        split at hit
        · simp at hit
        · simp only [Option.some.injEq] at hit
          subst hit
          have inner := length_dropWhile_le (· != ')') afterParen
          have outer := length_dropWhile_le (· != ']') afterOpen
          rw [endAt] at inner
          rw [closeAt] at outer
          simp only [List.length_cons] at inner outer ⊢
          omega
      · simp at hit
    · simp at hit
  · simp at hit

/-- The matches on a line, from left to right. -/
def matchesOn (t : Text) : List Match :=
  match hit : matchAt? t with
  | some found =>
    have _shorter := matchAt?_rest_length hit
    found :: matchesOn found.rest
  | none =>
    match t with
    | [] => []
    | _ :: rest => matchesOn rest
termination_by t.length

def onLine (line : Nat) (t : Text) : List Link :=
  (matchesOn t).map fun found => ⟨line, found.text, Title.stripAll found.target⟩

/-- The number of a line that is counted as so many.  It has 32 bits: after the greatest number, the
numbers start over at zero. -/
def lineNumber (count : Nat) : Nat :=
  count % UInt32.size

/-- The links on lines that are counted from `line`. -/
def onLines (line : Nat) : List Text → List Link
  | [] => []
  | t :: rest => onLine (lineNumber line) t ++ onLines (line + 1) rest

/-- The links of a text, by line and then from left to right. -/
def scan (text : Text) : List Link :=
  onLines 1 (lines text)

end Link

end MarkdownLinks
