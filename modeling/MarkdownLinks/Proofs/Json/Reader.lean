import MarkdownLinks.Json.Basic
import MarkdownLinks.Proofs.Text.Number

/-!
# Reading JSON

A reader of the grammar of JSON: blanks between all tokens, every escape with pairs of surrogates,
no control character inside strings, no leading zeros.  Numbers with a sign, a fraction or an
exponent stand for no value here and are refused.

Each reader takes a text that starts with what it reads and gives the text after it.
-/

namespace MarkdownLinks

namespace Json

abbrev Reader (α : Type) := Text → Option (α × Text)

namespace Reader

def isBlank (c : Char) : Bool :=
  c == ' ' || c == '\t' || c == '\n' || c == '\r'

def skipBlanks (t : Text) : Text :=
  t.dropWhile isBlank

/-- The character that is written as a backslash and one character. -/
def escaped? : Char → Option Char
  | '"' => some '"'
  | '\\' => some '\\'
  | '/' => some '/'
  | 'b' => some '\x08'
  | 'f' => some '\x0C'
  | 'n' => some '\n'
  | 'r' => some '\r'
  | 't' => some '\t'
  | _ => none

/-- Four hexadecimal digits. -/
def codeUnit : Reader Nat
  | a :: b :: c :: d :: rest => (number? 16 [a, b, c, d]).map (·, rest)
  | _ => none

/-- Whether a code unit is the first of a pair of surrogates. -/
def isHigh (unit : Nat) : Bool :=
  0xD800 ≤ unit && unit ≤ 0xDBFF

/-- Whether a code unit is the second of a pair of surrogates. -/
def isLow (unit : Nat) : Bool :=
  0xDC00 ≤ unit && unit ≤ 0xDFFF

/-- The character that a code unit stands for, or a pair of surrogates. -/
def unicode (t : Text) : Option (Char × Text) := do
  let (unit, rest) ← codeUnit t
  if isLow unit then
    none
  else if isHigh unit then
    match rest with
    | '\\' :: 'u' :: rest =>
      let (low, rest) ← codeUnit rest
      if isLow low then
        some (Char.ofNat (0x10000 + (unit - 0xD800) * 0x400 + (low - 0xDC00)), rest)
      else
        none
    | _ => none
  else
    some (Char.ofNat unit, rest)

/-- A character of a string, as it is or after a backslash. -/
def character : Reader Char
  | '\\' :: 'u' :: rest => unicode rest
  | '\\' :: c :: rest => (escaped? c).map (·, rest)
  | c :: rest => if c = '"' ∨ c = '\\' ∨ c.toNat < 0x20 then none else some (c, rest)
  | [] => none

/-- The characters before a closing quote, fewer of them than a bound. -/
def characters : Nat → Reader Text
  | 0, _ => none
  | _ + 1, '"' :: rest => some ([], rest)
  | bound + 1, t => do
    let (c, rest) ← character t
    let (others, rest) ← characters bound rest
    return (c :: others, rest)

def string : Reader Text
  | '"' :: rest => characters rest.length rest
  | _ => none

/-- Whether a number would go on with a character. -/
def continuesNumber (c : Char) : Bool :=
  isDigit c || c == '.' || c == 'e' || c == 'E'

def natural (t : Text) : Option (Nat × Text) :=
  let digits := t.takeWhile isDigit
  let rest := t.dropWhile isDigit
  if digits = [] ∨ (digits.head? = some '0' ∧ digits ≠ ['0']) ∨ rest.head?.any continuesNumber then
    none
  else
    (number? 10 digits).map (·, rest)

section Lists

variable {α : Type}

/-- Elements with commas between them before a closing bracket, no more of them than a bound. -/
def separated (element : Reader α) (close : Char) : Nat → Reader (List α)
  | 0, _ => none
  | bound + 1, t => do
    let (a, rest) ← element (skipBlanks t)
    match skipBlanks rest with
    | [] => none
    | c :: rest =>
      if c = close then
        return ([a], rest)
      else if c = ',' then
        let (others, rest) ← separated element close bound rest
        return (a :: others, rest)
      else
        none

/-- What stands between two brackets, after the opening one. -/
def list (element : Reader α) (close : Char) (t : Text) : Option (List α × Text) :=
  if (skipBlanks t).head? = some close then
    some ([], (skipBlanks t).tail)
  else
    separated element close t.length t

end Lists

/-- A key and the value after the colon. -/
def member (value : Reader Json) (t : Text) : Option ((Text × Json) × Text) := do
  let (key, rest) ← string t
  match skipBlanks rest with
  | ':' :: rest =>
    let (json, rest) ← value (skipBlanks rest)
    return ((key, json), rest)
  | _ => none

/-- A value in which arrays and objects are nested less deeply than a bound. -/
def value : Nat → Reader Json
  | 0, _ => none
  | depth + 1, t =>
    match t with
    | '"' :: _ => (string t).map (Prod.map .string id)
    | '[' :: rest => (list (value depth) ']' rest).map (Prod.map .array id)
    | '{' :: rest => (list (member (value depth)) '}' rest).map (Prod.map .object id)
    | 'n' :: _ => ("null".toList.isPrefixOf? t).map (.null, ·)
    | 't' :: _ => ("true".toList.isPrefixOf? t).map (.bool true, ·)
    | 'f' :: _ => ("false".toList.isPrefixOf? t).map (.bool false, ·)
    | _ => (natural t).map (Prod.map .number id)

end Reader

/-- The value that a text stands for, with blanks around it. -/
def read (t : Text) : Option Json := do
  let (json, rest) ← Reader.value (t.length + 1) (Reader.skipBlanks t)
  if Reader.skipBlanks rest = [] then some json else none

end Json

end MarkdownLinks
