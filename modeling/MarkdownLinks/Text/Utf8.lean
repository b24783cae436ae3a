import MarkdownLinks.Text.Basic

/-!
# UTF-8

Encoding of texts, and decoding of arbitrary bytes.  Decoding cuts the bytes into pieces: each
well-formed sequence is one character, and each longest beginning of a well-formed sequence that
is not completed is one malformed piece.  A reader then drops the malformed pieces, replaces each
of them by U+FFFD, or refuses them.
-/

namespace MarkdownLinks

namespace Utf8

def encode (t : Text) : Bytes :=
  t.flatMap String.utf8EncodeChar

/-- What decoding cuts the bytes into. -/
inductive Piece where
  | scalar (c : Char)
  | malformed (bytes : Bytes)

/-- A sequence whose first bytes have been read: these bytes, the bits they carry, the bounds of
the next byte, and how many bytes follow that one. -/
structure Opened where
  bytes : Bytes
  bits : Nat
  low : Nat
  high : Nat
  more : Nat

/-- Reads a byte between two sequences.  The bounds keep out overlong sequences, surrogates and
code points above U+10FFFF, as the table of well-formed byte sequences says. -/
def openWith (b : UInt8) : List Piece × Option Opened :=
  let n := b.toNat
  if n ≤ 0x7F then ([.scalar (Char.ofNat n)], none)
  else if 0xC2 ≤ n ∧ n ≤ 0xDF then ([], some ⟨[b], n - 0xC0, 0x80, 0xBF, 0⟩)
  else if n = 0xE0 then ([], some ⟨[b], n - 0xE0, 0xA0, 0xBF, 1⟩)
  else if n = 0xED then ([], some ⟨[b], n - 0xE0, 0x80, 0x9F, 1⟩)
  else if 0xE1 ≤ n ∧ n ≤ 0xEF then ([], some ⟨[b], n - 0xE0, 0x80, 0xBF, 1⟩)
  else if n = 0xF0 then ([], some ⟨[b], n - 0xF0, 0x90, 0xBF, 2⟩)
  else if 0xF1 ≤ n ∧ n ≤ 0xF3 then ([], some ⟨[b], n - 0xF0, 0x80, 0xBF, 2⟩)
  else if n = 0xF4 then ([], some ⟨[b], n - 0xF0, 0x80, 0x8F, 2⟩)
  else ([.malformed [b]], none)

/-- Reads one byte: the pieces that it completes, and the sequence that is open after it. -/
def step : Option Opened → UInt8 → List Piece × Option Opened
  | none, b => openWith b
  | some o, b =>
    if o.low ≤ b.toNat ∧ b.toNat ≤ o.high then
      let bits := o.bits * 64 + (b.toNat - 0x80)
      match o.more with
      | 0 => ([.scalar (Char.ofNat bits)], none)
      | more + 1 => ([], some ⟨o.bytes ++ [b], bits, 0x80, 0xBF, more⟩)
    else
      let (pieces, opened) := openWith b
      (.malformed o.bytes :: pieces, opened)

/-- The pieces of bytes that follow an opened sequence. -/
def decodeAfter : Option Opened → Bytes → List Piece
  | none, [] => []
  | some o, [] => [.malformed o.bytes]
  | opened, b :: rest =>
    let (pieces, opened') := step opened b
    pieces ++ decodeAfter opened' rest

def decode (bytes : Bytes) : List Piece :=
  decodeAfter none bytes

/-- The text with every malformed piece left out. -/
def decodeDropping (bytes : Bytes) : Text :=
  (decode bytes).filterMap fun
    | .scalar c => some c
    | .malformed _ => none

/-- The text with every malformed piece replaced by U+FFFD. -/
def decodeLossy (bytes : Bytes) : Text :=
  (decode bytes).map fun
    | .scalar c => c
    | .malformed _ => '\uFFFD'

/-- The text, if no piece is malformed. -/
def decode? (bytes : Bytes) : Option Text :=
  (decode bytes).mapM fun
    | .scalar c => some c
    | .malformed _ => none

end Utf8

end MarkdownLinks
