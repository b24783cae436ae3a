import MarkdownLinks.Text.Number

/-!
# JSON

JSON values and the text that stands for them: every element and every member on a line of its
own, indented by two spaces for each level.
-/

namespace MarkdownLinks

/-- A JSON value; its numbers are natural numbers. -/
inductive Json where
  | null
  | bool (b : Bool)
  | number (n : Nat)
  | string (t : Text)
  | array (items : List Json)
  /-- The members in the order in which they are written. -/
  | object (members : List (Text × Json))

namespace Json

def hexDigit (n : Nat) : Char :=
  Nat.digitChar n

/-- A character as it is written inside a string: quotes, backslashes and control characters are
escaped. -/
def escapeChar (c : Char) : Text :=
  if c = '"' then ['\\', '"']
  else if c = '\\' then ['\\', '\\']
  else if c = '\x08' then ['\\', 'b']
  else if c = '\t' then ['\\', 't']
  else if c = '\n' then ['\\', 'n']
  else if c = '\x0C' then ['\\', 'f']
  else if c = '\r' then ['\\', 'r']
  else if c.toNat < 0x20 then
    ['\\', 'u', '0', '0', hexDigit (c.toNat / 16), hexDigit (c.toNat % 16)]
  else [c]

def quote (t : Text) : Text :=
  '"' :: t.flatMap escapeChar ++ ['"']

/-- The beginning of a line at a level. -/
def newLine (level : Nat) : Text :=
  '\n' :: List.replicate (2 * level) ' '

mutual

/-- The text of a value that starts on a line at a level. -/
def pretty (level : Nat) : Json → Text
  | null => "null".toList
  | bool true => "true".toList
  | bool false => "false".toList
  | number n => decimal n
  | string t => quote t
  | array [] => ['[', ']']
  | array (item :: rest) =>
    '[' :: prettyItems (level + 1) (item :: rest) ++ newLine level ++ [']']
  | object [] => ['{', '}']
  | object (member :: rest) =>
    '{' :: prettyMembers (level + 1) (member :: rest) ++ newLine level ++ ['}']

def prettyItems (level : Nat) : List Json → Text
  | [] => []
  | [item] => newLine level ++ item.pretty level
  | item :: rest => newLine level ++ item.pretty level ++ [','] ++ prettyItems level rest

def prettyMembers (level : Nat) : List (Text × Json) → Text
  | [] => []
  | [(key, value)] => newLine level ++ quote key ++ [':', ' '] ++ value.pretty level
  | (key, value) :: rest =>
    newLine level ++ quote key ++ [':', ' '] ++ value.pretty level ++ [','] ++
      prettyMembers level rest

end

end Json

end MarkdownLinks
