import MarkdownLinks.Settings.Basic
import MarkdownLinks.Text.Number

/-!
# Reading settings

The settings file is written in TOML.  It may give each of the four settings at most once, as
`key = value` on a line of its own, between empty lines and comments; whatever else TOML allows
would be an unknown setting or a value of the wrong kind, and is refused like text that is not
TOML at all.

Each reader takes a text that starts with what it reads and gives the text after it.
-/

namespace MarkdownLinks

namespace Settings

/-- Why a settings file is refused. -/
inductive Fault where
  /-- The line starts neither a setting nor a comment. -/
  | malformed
  | unknown (key : Text)
  | repeated (key : Text)
  /-- The value is not of the kind that the setting needs. -/
  | badValue (key : Text)
  deriving DecidableEq

namespace Fault

def message : Fault → Text
  | .malformed => "expected a setting or a comment".toList
  | .unknown key => "unknown setting `".toList ++ key ++ "`".toList
  | .repeated key => "setting `".toList ++ key ++ "` is given twice".toList
  | .badValue key => "setting `".toList ++ key ++ "` has a value of the wrong kind".toList

end Fault

/-- A reader of values of a kind. -/
abbrev Reader (α : Type) := Text → Option (α × Text)

namespace Reader

def isSpace (c : Char) : Bool :=
  c == ' ' || c == '\t'

def skipSpace (t : Text) : Text :=
  t.dropWhile isSpace

/-- Whether a character may stand in a comment or a string: no control character but the tab. -/
def isPrintable (c : Char) : Bool :=
  c == '\t' || (' ' ≤ c && c != '\x7F')

/-- The text after a line ending, if it starts with one. -/
def newline? : Text → Option Text
  | '\n' :: rest => some rest
  | '\r' :: '\n' :: rest => some rest
  | _ => none

def skipComment : Text → Text
  | '#' :: rest => rest.dropWhile isPrintable
  | t => t

/-- The text after the end of a line on which only space and a comment are left. -/
def endOfLine? (t : Text) : Option Text :=
  match skipComment (skipSpace t) with
  | [] => some []
  | rest => newline? rest

/-- The character that hexadecimal digits name, if it is one. -/
def namedChar? (digits : Text) : Option Char := do
  let code ← number? 16 digits
  if code.isValidChar then some (Char.ofNat code) else none

/-- The character that is written as a backslash and one letter. -/
def escaped? : Char → Option Char
  | 'b' => some '\x08'
  | 't' => some '\t'
  | 'n' => some '\n'
  | 'f' => some '\x0C'
  | 'r' => some '\r'
  | '"' => some '"'
  | '\\' => some '\\'
  | _ => none

def before (c : Char) : Option (Text × Text) → Option (Text × Text) :=
  Option.map fun (content, rest) => (c :: content, rest)

/-- The rest of a string in double quotes on one line. -/
def basicRest : Reader Text
  | '"' :: rest => some ([], rest)
  | '\\' :: 'u' :: a :: b :: c :: d :: rest => do
    before (← namedChar? [a, b, c, d]) (basicRest rest)
  | '\\' :: 'U' :: a :: b :: c :: d :: e :: f :: g :: h :: rest => do
    before (← namedChar? [a, b, c, d, e, f, g, h]) (basicRest rest)
  | '\\' :: c :: rest => do
    before (← escaped? c) (basicRest rest)
  | c :: rest => if isPrintable c && c != '\\' then before c (basicRest rest) else none
  | [] => none

/-- The rest of a string in single quotes on one line. -/
def literalRest : Reader Text
  | '\'' :: rest => some ([], rest)
  | c :: rest => if isPrintable c then before c (literalRest rest) else none
  | [] => none

/-- Whether nothing but space stands before the end of the line. -/
def endsLine (t : Text) : Bool :=
  (newline? (skipSpace t)).isSome

/-- The rest of a string in three double quotes.  After a backslash at the end of a line, white
space is left out (`trimming`) up to the next character; up to two quotes may stand before the
closing ones. -/
def longBasicRest (trimming : Bool) : Reader Text
  | '"' :: '"' :: '"' :: '"' :: '"' :: rest => some (['"', '"'], rest)
  | '"' :: '"' :: '"' :: '"' :: rest => some (['"'], rest)
  | '"' :: '"' :: '"' :: rest => some ([], rest)
  | '\r' :: '\n' :: rest =>
    if trimming then longBasicRest true rest else before '\n' (longBasicRest false rest)
  | '\n' :: rest =>
    if trimming then longBasicRest true rest else before '\n' (longBasicRest false rest)
  | '\\' :: 'u' :: a :: b :: c :: d :: rest => do
    before (← namedChar? [a, b, c, d]) (longBasicRest false rest)
  | '\\' :: 'U' :: a :: b :: c :: d :: e :: f :: g :: h :: rest => do
    before (← namedChar? [a, b, c, d, e, f, g, h]) (longBasicRest false rest)
  | '\\' :: c :: rest =>
    if endsLine (c :: rest) then
      longBasicRest true (c :: rest)
    else do
      before (← escaped? c) (longBasicRest false rest)
  | c :: rest =>
    if trimming && isSpace c then longBasicRest true rest
    else if isPrintable c && c != '\\' then before c (longBasicRest false rest)
    else none
  | [] => none

/-- The rest of a string in three single quotes. -/
def longLiteralRest : Reader Text
  | '\'' :: '\'' :: '\'' :: '\'' :: '\'' :: rest => some (['\'', '\''], rest)
  | '\'' :: '\'' :: '\'' :: '\'' :: rest => some (['\''], rest)
  | '\'' :: '\'' :: '\'' :: rest => some ([], rest)
  | '\r' :: '\n' :: rest => before '\n' (longLiteralRest rest)
  | '\n' :: rest => before '\n' (longLiteralRest rest)
  | c :: rest => if isPrintable c then before c (longLiteralRest rest) else none
  | [] => none

/-- The text without a line ending at its beginning. -/
def skipNewline (t : Text) : Text :=
  (newline? t).getD t

def shortString : Reader Text
  | '"' :: rest => basicRest rest
  | '\'' :: rest => literalRest rest
  | _ => none

/-- A string in any of its four forms; a line ending right after three quotes is left out. -/
def string : Reader Text
  | '"' :: '"' :: '"' :: rest => longBasicRest false (skipNewline rest)
  | '\'' :: '\'' :: '\'' :: rest => longLiteralRest (skipNewline rest)
  | t => shortString t

def isKeyChar (c : Char) : Bool :=
  c.isAlphanum || c == '_' || c == '-'

/-- The name of a setting, with or without quotes. -/
def key : Reader Text
  | t =>
    match t.takeWhile isKeyChar with
    | [] => shortString t
    | name => some (name, t.dropWhile isKeyChar)

def bool : Reader Bool
  | 't' :: 'r' :: 'u' :: 'e' :: rest => some (true, rest)
  | 'f' :: 'a' :: 'l' :: 's' :: 'e' :: rest => some (false, rest)
  | _ => none

/-- Digits without the single underscores that may stand between them. -/
def ungrouped? : Text → Option Text
  | [] => none
  | [c] => if c = '_' then none else some [c]
  | c :: '_' :: d :: rest =>
    if c = '_' ∨ d = '_' then none else (ungrouped? (d :: rest)).map (c :: ·)
  | c :: rest => if c = '_' then none else (ungrouped? rest).map (c :: ·)

/-- The largest number that a settings file may hold. -/
def maxNumber : Nat := 0x7FFFFFFFFFFFFFFF

/-- The number that an integer stands for: decimal without leading zeros, or in another base after
`0x`, `0o` or `0b`. -/
def unsigned? : Text → Option Nat
  | '0' :: 'x' :: digits => ungrouped? digits >>= number? 16
  | '0' :: 'o' :: digits => ungrouped? digits >>= number? 8
  | '0' :: 'b' :: digits => ungrouped? digits >>= number? 2
  | '0' :: _ :: _ => none
  | digits => ungrouped? digits >>= number? 10

/-- The number that an integer with or without a sign stands for; only zero may be negative. -/
def natural? : Text → Option Nat
  | '+' :: '0' :: _ :: _ => none
  | '-' :: '0' :: _ :: _ => none
  | '+' :: digits => unsigned? digits
  | '-' :: digits => (unsigned? digits).filter (· = 0)
  | digits => unsigned? digits

def natural : Reader Nat
  | t => do
    let isPart := fun c : Char => c.isAlphanum || c == '_' || c == '+' || c == '-' || c == '.'
    let value ← natural? (t.takeWhile isPart)
    if value ≤ maxNumber then some (value, t.dropWhile isPart) else none

/-- The text without white space, line endings and comments at its beginning; at most `fuel` of
them are left out. -/
def skipTrivia : Nat → Text → Text
  | 0, t => t
  | fuel + 1, t =>
    match skipSpace t with
    | '#' :: rest => skipTrivia fuel (skipComment ('#' :: rest))
    | t =>
      match newline? t with
      | some rest => skipTrivia fuel rest
      | none => t

/-- The strings of a list, up to its closing bracket; at most `fuel` of them. -/
def listRest : Nat → Reader (List Text)
  | 0, _ => none
  | fuel + 1, t =>
    match skipTrivia t.length t with
    | ']' :: rest => some ([], rest)
    | t => do
      let (first, afterFirst) ← string t
      match skipTrivia afterFirst.length afterFirst with
      | ']' :: rest => some ([first], rest)
      | ',' :: rest =>
        let (others, rest) ← listRest fuel rest
        return (first :: others, rest)
      | _ => none

def list : Reader (List Text)
  | '[' :: rest => listRest (rest.length + 1) rest
  | _ => none

end Reader

structure Given where
  checkExternal : Option Bool := none
  exclude : Option (List Text) := none
  extension : Option Text := none
  timeoutSeconds : Option Nat := none

namespace Given

/-- The settings with what is not given taken from the defaults.  Full stops before the extension
are left out. -/
def toSettings (given : Given) : Settings where
  checkExternal := given.checkExternal.getD Settings.default.checkExternal
  exclude := (given.exclude.map .ofList).getD Settings.default.exclude
  extension := (given.extension.map (·.dropWhile (· == '.'))).getD Settings.default.extension
  timeoutSeconds := given.timeoutSeconds.getD Settings.default.timeoutSeconds

/-- Reads a value for a setting and puts it in, unless the setting has a value. -/
def give {α : Type} (key : Text) (old : Option α) (read : Reader α) (t : Text)
    (put : Option α → Given) : Except Fault (Given × Text) :=
  match old with
  | some _ => .error (.repeated key)
  | none =>
    match read t with
    | some (value, rest) => .ok (put (some value), rest)
    | none => .error (.badValue key)

def readValue (given : Given) (key : Text) (t : Text) : Except Fault (Given × Text) :=
  if key = "check_external".toList then
    give key given.checkExternal Reader.bool t fun value => { given with checkExternal := value }
  else if key = "exclude".toList then
    give key given.exclude Reader.list t fun value => { given with exclude := value }
  else if key = "extension".toList then
    give key given.extension Reader.string t fun value => { given with extension := value }
  else if key = "external_timeout_secs".toList then
    give key given.timeoutSeconds Reader.natural t fun value => { given with timeoutSeconds := value }
  else
    .error (.unknown key)

/-- Reads one line that is not empty: a comment, or a setting and what follows it. -/
def readLine (given : Given) (t : Text) : Except Fault (Given × Text) :=
  match Reader.endOfLine? t with
  | some rest => .ok (given, rest)
  | none =>
    match Reader.key (Reader.skipSpace t) with
    | none => .error .malformed
    | some (key, afterKey) =>
      match Reader.skipSpace afterKey with
      | '=' :: rest => do
        let (given, afterValue) ← given.readValue key (Reader.skipSpace rest)
        match Reader.endOfLine? afterValue with
        | some rest => .ok (given, rest)
        | none => .error (.badValue key)
      | _ => .error .malformed

/-- Reads all lines, at most `fuel` of them. -/
def readLines : Nat → Given → Text → Except Fault Given
  | _, given, [] => .ok given
  | 0, _, _ :: _ => .error .malformed
  | fuel + 1, given, t => do
    let (given, rest) ← given.readLine t
    readLines fuel given rest

end Given

/-- The settings that the text of a settings file gives; a byte order mark at its beginning is
left out. -/
def read (text : Text) : Except Fault Settings := do
  let text := if text.head? = some '\uFEFF' then text.tail else text
  let given ← Given.readLines (text.length + 1) {} text
  return given.toSettings

end Settings

end MarkdownLinks
