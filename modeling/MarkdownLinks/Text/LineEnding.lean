import MarkdownLinks.Text.Basic

/-!
# Line endings

A line may end with a newline, with a carriage return, or with both.  Documents are read with
every ending turned into one newline, so that line numbers agree with those of editors.
-/

namespace MarkdownLinks

namespace LineEnding

/-- Each carriage return that stands before a newline left out. -/
def joinCrLf : Text → Text
  | [] => []
  | '\r' :: '\n' :: rest => '\n' :: joinCrLf rest
  | c :: rest => c :: joinCrLf rest

/-- Every line ending turned into one newline. -/
def unify (t : Text) : Text :=
  (joinCrLf t).map fun c => if c = '\r' then '\n' else c

end LineEnding

/-- The lines of a text, without the newlines between them. -/
def lines (t : Text) : List Text :=
  splitAtEach '\n' t

end MarkdownLinks
