import MarkdownLinks.Proofs.Text.Utf8
import MarkdownLinks.Text.Blank
import MarkdownLinks.Url.Percent

/-!
# Writing percent escapes

A path is written into a URL by escaping every byte that is not a letter, a digit or one of `_`,
`.`, `-` and `/`.  Decoding gives the path back, and nothing that ends a link's target, a fragment
or a scheme is left in what is written.
-/

namespace MarkdownLinks

namespace Percent

/-- Whether a byte is written as it is. -/
def isPlain (b : UInt8) : Bool :=
  (0x30 ≤ b && b ≤ 0x39) || (0x41 ≤ b && b ≤ 0x5A) || (0x61 ≤ b && b ≤ 0x7A) ||
    [0x5F, 0x2E, 0x2D, 0x2F].contains b

/-- A hexadecimal digit, in upper case. -/
def digit (value : Nat) : Char :=
  Char.ofNat (if value < 10 then 0x30 + value else 0x41 + (value - 10))

/-- A byte as it is written in a URL. -/
def escapeByte (b : UInt8) : Text :=
  if isPlain b then [Char.ofNat b.toNat] else ['%', digit (b.toNat / 16), digit (b.toNat % 16)]

/-- Bytes as they are written in a URL. -/
def escape (bytes : Bytes) : Text :=
  bytes.flatMap escapeByte

/-- Whether a character is one that escaped bytes are written with. -/
def isOrdinary (c : Char) : Bool :=
  c == '%' || (c.toNat < 0x80 && isPlain (UInt8.ofNat c.toNat))

theorem forall_byte {p : UInt8 → Prop} (all : ∀ n < 0x100, p (UInt8.ofNat n)) (b : UInt8) :
    p b := by
  rw [← UInt8.ofNat_toNat (x := b)]
  exact all b.toNat b.toNat_lt

/-- What holds of the characters of every escaped byte holds of all that escaping writes. -/
theorem of_mem_escape (p : Char → Bool)
    (ofByte : ∀ n < 0x100, (escapeByte (UInt8.ofNat n)).all p = true) {bytes : Bytes} {c : Char}
    (mem : c ∈ escape bytes) : p c = true := by
  rcases List.mem_flatMap.1 mem with ⟨b, -, charMem⟩
  have all : ∀ b, (escapeByte b).all p = true := forall_byte ofByte
  exact List.all_eq_true.1 (all b) c charMem

theorem isOrdinary_of_mem_escape {bytes : Bytes} {c : Char} (mem : c ∈ escape bytes) :
    isOrdinary c = true :=
  of_mem_escape isOrdinary (by decide +kernel) mem

theorem not_mem_escape {bytes : Bytes} {c : Char} (special : isOrdinary c = false) :
    c ∉ escape bytes := by
  intro mem
  simp only [isOrdinary_of_mem_escape mem] at special
  cases special

theorem not_isBlank_of_mem_escape {bytes : Bytes} {c : Char} (mem : c ∈ escape bytes) :
    isBlank c = false := by
  have notBlank : (!isBlank c) = true := of_mem_escape (!isBlank ·) (by decide +kernel) mem
  simpa using notBlank

theorem escape_ne_nil {bytes : Bytes} (nonempty : bytes ≠ []) : escape bytes ≠ [] := by
  rcases List.exists_cons_of_ne_nil nonempty with ⟨b, rest, rfl⟩
  have first : escapeByte b ≠ [] := by
    unfold escapeByte
    split <;> simp
  simp [escape, first]

theorem decodeBytes_cons_of_ne {b : UInt8} (notPercent : b ≠ 0x25) (rest : Bytes) :
    decodeBytes (b :: rest) = b :: decodeBytes rest := by
  match rest with
  | [] => rfl
  | [_] => rfl
  | second :: third :: more => simp only [decodeBytes, if_neg notPercent]

theorem decodeBytes_eq_self {bytes : Bytes} (noPercent : (0x25 : UInt8) ∉ bytes) :
    decodeBytes bytes = bytes := by
  induction bytes with
  | nil => rfl
  | cons b rest ih =>
    rw [List.mem_cons, not_or] at noPercent
    rw [decodeBytes_cons_of_ne (Ne.symm noPercent.1), ih noPercent.2]

theorem decode_eq_self {t : Text} (noPercent : (0x25 : UInt8) ∉ Utf8.encode t) :
    decode t = t := by
  rw [decode, decodeBytes_eq_self noPercent, Utf8.decodeLossy_encode]

theorem decodeBytes_percent {high low b : UInt8} (value : byte? high low = some b) (rest : Bytes) :
    decodeBytes (0x25 :: high :: low :: rest) = b :: decodeBytes rest := by
  rw [decodeBytes, if_pos rfl, value]

/-- The byte of a hexadecimal digit. -/
def digitByte (value : Nat) : UInt8 :=
  UInt8.ofNat (digit value).toNat

theorem encode_escapeByte_of_isPlain :
    ∀ b, isPlain b = true → Utf8.encode (escapeByte b) = [b] :=
  forall_byte (by decide +kernel)

theorem encode_escapeByte_of_not_isPlain :
    ∀ b, isPlain b = false →
      Utf8.encode (escapeByte b) = [0x25, digitByte (b.toNat / 16), digitByte (b.toNat % 16)] :=
  forall_byte (by decide +kernel)

theorem byte?_digitByte :
    ∀ b : UInt8, byte? (digitByte (b.toNat / 16)) (digitByte (b.toNat % 16)) = some b :=
  forall_byte (by decide +kernel)

theorem decodeBytes_escapeByte (b : UInt8) (rest : Bytes) :
    decodeBytes (Utf8.encode (escapeByte b) ++ rest) = b :: decodeBytes rest := by
  cases plain : isPlain b with
  | true =>
    have notPercent : b ≠ 0x25 := by
      rintro rfl
      cases plain
    simp only [encode_escapeByte_of_isPlain b plain, List.singleton_append,
      decodeBytes_cons_of_ne notPercent]
  | false =>
    simp only [encode_escapeByte_of_not_isPlain b plain]
    exact decodeBytes_percent (byte?_digitByte b) rest

theorem decodeBytes_escape (bytes : Bytes) : decodeBytes (Utf8.encode (escape bytes)) = bytes := by
  induction bytes with
  | nil => rfl
  | cons b rest ih =>
    have written : Utf8.encode (escape (b :: rest)) =
        Utf8.encode (escapeByte b) ++ Utf8.encode (escape rest) := by
      simp [Utf8.encode, escape]
    simp only [written, decodeBytes_escapeByte, ih]

/-- A text is decoded from its escaped bytes. -/
theorem decode_escape (t : Text) : decode (escape (Utf8.encode t)) = t := by
  simp only [decode, decodeBytes_escape, Utf8.decodeLossy_encode]

end Percent

end MarkdownLinks
