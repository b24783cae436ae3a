import MarkdownLinks.Text.Utf8

/-!
# Decoding what was encoded

The bytes of a character are one well-formed sequence: the first of them opens a sequence of the
right length, and the bounds of the second keep out nothing that a character is made of.  So a text
is read back from its bytes as it was.
-/

namespace MarkdownLinks

namespace Utf8

variable {b : UInt8}

section Lead

theorem openWith_single (range : b.toNat ≤ 0x7F) :
    openWith b = ([.scalar (Char.ofNat b.toNat)], none) := by
  simp only [openWith, range, ↓reduceIte]

theorem openWith_double (range : 0xC2 ≤ b.toNat ∧ b.toNat ≤ 0xDF) :
    openWith b = ([], some ⟨[b], b.toNat - 0xC0, 0x80, 0xBF, 0⟩) := by
  have notSingle : ¬ b.toNat ≤ 0x7F := by omega
  simp only [openWith, notSingle, range, and_self, ↓reduceIte]

/-- Overlong sequences and surrogates are kept out by the second byte. -/
theorem openWith_triple (range : 0xE0 ≤ b.toNat ∧ b.toNat ≤ 0xEF) :
    openWith b = ([], some
      { bytes := [b]
        bits := b.toNat - 0xE0
        low := if b.toNat = 0xE0 then 0xA0 else 0x80
        high := if b.toNat = 0xED then 0x9F else 0xBF
        more := 1 }) := by
  have notSingle : ¬ b.toNat ≤ 0x7F := by omega
  have notDouble : ¬ (0xC2 ≤ b.toNat ∧ b.toNat ≤ 0xDF) := by omega
  simp only [openWith, notSingle, notDouble, ↓reduceIte]
  by_cases first : b.toNat = 0xE0
  · simp [first]
  · by_cases surrogates : b.toNat = 0xED
    · simp [surrogates]
    · have others : 0xE1 ≤ b.toNat ∧ b.toNat ≤ 0xEF := by omega
      simp only [first, surrogates, others, and_self, ↓reduceIte]

/-- Overlong sequences and code points that are too large are kept out by the second byte. -/
theorem openWith_quadruple (range : 0xF0 ≤ b.toNat ∧ b.toNat ≤ 0xF4) :
    openWith b = ([], some
      { bytes := [b]
        bits := b.toNat - 0xF0
        low := if b.toNat = 0xF0 then 0x90 else 0x80
        high := if b.toNat = 0xF4 then 0x8F else 0xBF
        more := 2 }) := by
  have notSingle : ¬ b.toNat ≤ 0x7F := by omega
  have notDouble : ¬ (0xC2 ≤ b.toNat ∧ b.toNat ≤ 0xDF) := by omega
  have notTriple : b.toNat ≠ 0xE0 ∧ b.toNat ≠ 0xED ∧ ¬ (0xE1 ≤ b.toNat ∧ b.toNat ≤ 0xEF) := by
    omega
  simp only [openWith, notSingle, notDouble, notTriple, ↓reduceIte]
  by_cases first : b.toNat = 0xF0
  · simp [first]
  · by_cases last : b.toNat = 0xF4
    · simp [last]
    · have others : 0xF1 ≤ b.toNat ∧ b.toNat ≤ 0xF3 := by omega
      simp only [first, last, others, and_self, ↓reduceIte]

end Lead

section Steps

variable {opened : Opened} {bytes rest : Bytes} {bits low high more : Nat}

theorem decodeAfter_lead (opens : openWith b = ([], some opened)) :
    decodeAfter none (b :: rest) = decodeAfter (some opened) rest := by
  simp only [decodeAfter, step, opens]
  rfl

/-- The last byte of a sequence completes its character. -/
theorem decodeAfter_last (range : low ≤ b.toNat ∧ b.toNat ≤ high) :
    decodeAfter (some ⟨bytes, bits, low, high, 0⟩) (b :: rest) =
      .scalar (Char.ofNat (bits * 64 + (b.toNat - 0x80))) :: decodeAfter none rest := by
  simp only [decodeAfter, step, if_pos range]
  rfl

theorem decodeAfter_next (range : low ≤ b.toNat ∧ b.toNat ≤ high) :
    decodeAfter (some ⟨bytes, bits, low, high, more + 1⟩) (b :: rest) =
      decodeAfter
        (some ⟨bytes ++ [b], bits * 64 + (b.toNat - 0x80), 0x80, 0xBF, more⟩) rest := by
  simp only [decodeAfter, step, if_pos range]
  rfl

end Steps

section Sequences

variable {lead second third last : UInt8} {rest : Bytes}

/-- Whether a byte can continue a sequence. -/
def IsContinuation (b : UInt8) : Prop :=
  0x80 ≤ b.toNat ∧ b.toNat ≤ 0xBF

theorem decodeAfter_single (range : lead.toNat ≤ 0x7F) :
    decodeAfter none (lead :: rest) =
      .scalar (Char.ofNat lead.toNat) :: decodeAfter none rest := by
  simp only [decodeAfter, step, openWith_single range]
  rfl

theorem decodeAfter_double (range : 0xC2 ≤ lead.toNat ∧ lead.toNat ≤ 0xDF)
    (lastRange : IsContinuation last) :
    decodeAfter none (lead :: last :: rest) =
      .scalar (Char.ofNat ((lead.toNat - 0xC0) * 64 + (last.toNat - 0x80))) ::
        decodeAfter none rest := by
  simp only [decodeAfter_lead (openWith_double range), decodeAfter_last lastRange]

theorem decodeAfter_triple (range : 0xE0 ≤ lead.toNat ∧ lead.toNat ≤ 0xEF)
    (secondRange : IsContinuation second) (notOverlong : lead.toNat = 0xE0 → 0xA0 ≤ second.toNat)
    (notSurrogate : lead.toNat = 0xED → second.toNat ≤ 0x9F) (lastRange : IsContinuation last) :
    decodeAfter none (lead :: second :: last :: rest) =
      .scalar (Char.ofNat
        (((lead.toNat - 0xE0) * 64 + (second.toNat - 0x80)) * 64 + (last.toNat - 0x80))) ::
        decodeAfter none rest := by
  rcases secondRange with ⟨above, under⟩
  rw [decodeAfter_lead (openWith_triple range),
    decodeAfter_next (by constructor <;> split <;> omega),
    decodeAfter_last lastRange]

theorem decodeAfter_quadruple (range : 0xF0 ≤ lead.toNat ∧ lead.toNat ≤ 0xF4)
    (secondRange : IsContinuation second) (notOverlong : lead.toNat = 0xF0 → 0x90 ≤ second.toNat)
    (notTooLarge : lead.toNat = 0xF4 → second.toNat ≤ 0x8F) (thirdRange : IsContinuation third)
    (lastRange : IsContinuation last) :
    decodeAfter none (lead :: second :: third :: last :: rest) =
      .scalar (Char.ofNat
        ((((lead.toNat - 0xF0) * 64 + (second.toNat - 0x80)) * 64 + (third.toNat - 0x80)) * 64 +
          (last.toNat - 0x80))) ::
        decodeAfter none rest := by
  rcases secondRange with ⟨above, under⟩
  rw [decodeAfter_lead (openWith_quadruple range),
    decodeAfter_next (by constructor <;> split <;> omega),
    decodeAfter_next thirdRange, decodeAfter_last lastRange]

end Sequences

/-- The bytes of a character are read as that character, whatever follows them. -/
theorem decodeAfter_encodeChar (c : Char) (rest : Bytes) :
    decodeAfter none (String.utf8EncodeChar c ++ rest) = .scalar c :: decodeAfter none rest := by
  -- A code point is no surrogate and not too large.
  have valid : c.val.toNat < 0xD800 ∨ 0xDFFF < c.val.toNat ∧ c.val.toNat < 0x110000 := c.valid
  have whole : Char.ofNat c.val.toNat = c := Char.ofNat_toNat c
  have small : ∀ {n}, n < 0x100 → (UInt8.ofNat n).toNat = n := UInt8.toNat_ofNat_of_lt'
  have continued : ∀ bits, (UInt8.ofNat (bits % 0x40 + 0x80)).toNat = bits % 0x40 + 0x80 := by
    intro bits
    exact small (by omega)
  have isContinuation : ∀ bits, IsContinuation (UInt8.ofNat (bits % 0x40 + 0x80)) := by
    intro bits
    simp only [IsContinuation, continued]
    omega
  simp only [String.utf8EncodeChar]
  generalize c.val.toNat = code at *
  split
  · next single =>
    have lead : (UInt8.ofNat code).toNat = code := small (by omega)
    rw [List.singleton_append, decodeAfter_single (by omega), lead, whole]
  · split
    · next double =>
      have lead : (UInt8.ofNat (code / 64 % 0x20 + 0xC0)).toNat = code / 64 % 0x20 + 0xC0 :=
        small (by omega)
      have joined : code / 64 % 0x20 * 64 + code % 0x40 = code := by omega
      simp only [List.cons_append, List.nil_append]
      rw [decodeAfter_double (by omega) (isContinuation _), lead, continued,
        Nat.add_sub_cancel, Nat.add_sub_cancel, joined, whole]
    · split
      · next triple =>
        have lead : (UInt8.ofNat (code / 4096 % 0x10 + 0xE0)).toNat = code / 4096 % 0x10 + 0xE0 :=
          small (by omega)
        have joined : (code / 4096 % 0x10 * 64 + code / 64 % 0x40) * 64 + code % 0x40 = code := by
          omega
        have second := continued (code / 64)
        simp only [List.cons_append, List.nil_append]
        rw [decodeAfter_triple (by omega) (isContinuation _) (by omega) (by omega)
          (isContinuation _), lead, continued, continued, Nat.add_sub_cancel, Nat.add_sub_cancel,
          Nat.add_sub_cancel, joined, whole]
      · next quadruple =>
        have lead : (UInt8.ofNat (code / 262144 % 0x08 + 0xF0)).toNat =
            code / 262144 % 0x08 + 0xF0 :=
          small (by omega)
        have joined : ((code / 262144 % 0x08 * 64 + code / 4096 % 0x40) * 64 +
            code / 64 % 0x40) * 64 + code % 0x40 = code := by
          omega
        have second := continued (code / 4096)
        simp only [List.cons_append, List.nil_append]
        rw [decodeAfter_quadruple (by omega) (isContinuation _) (by omega) (by omega)
          (isContinuation _) (isContinuation _), lead, continued, continued, continued,
          Nat.add_sub_cancel, Nat.add_sub_cancel, Nat.add_sub_cancel, Nat.add_sub_cancel, joined,
          whole]

theorem decode_encode (t : Text) : decode (encode t) = t.map .scalar := by
  induction t with
  | nil => rfl
  | cons c rest ih =>
    have bytes : encode (c :: rest) = String.utf8EncodeChar c ++ encode rest := rfl
    simp only [decode, bytes, decodeAfter_encodeChar, List.map_cons]
    exact congrArg (_ :: ·) ih

/-- Decoding undoes encoding. -/
theorem decodeLossy_encode (t : Text) : decodeLossy (encode t) = t := by
  simp only [decodeLossy, decode_encode, List.map_map]
  exact List.map_id t

section Afresh

/-- Whether no ASCII byte continues a sequence. -/
def Opened.RefusesAscii (opened : Opened) : Prop :=
  0x7F < opened.low

theorem refusesAscii_of_openWith {opened : Opened} (opens : (openWith b).2 = some opened) :
    opened.RefusesAscii := by
  simp only [openWith] at opens
  grind [Opened.RefusesAscii]

theorem refusesAscii_of_step {before : Option Opened} {opened : Opened}
    (steps : (step before b).2 = some opened) : opened.RefusesAscii := by
  cases before with
  | none => exact refusesAscii_of_openWith steps
  | some o =>
    simp only [step] at steps
    split at steps
    · split at steps
      · cases steps
      · cases steps
        simp [Opened.RefusesAscii]
    · exact refusesAscii_of_openWith steps

/-- An ASCII byte ends whatever was opened before it, so that decoding starts afresh after it. -/
theorem decodeAfter_append_ascii {opened : Option Opened}
    (refuses : ∀ o ∈ opened, o.RefusesAscii) (ascii : b.toNat ≤ 0x7F) (front rest : Bytes) :
    decodeAfter opened (front ++ b :: rest) =
      decodeAfter opened front ++ .scalar (Char.ofNat b.toNat) :: decodeAfter none rest := by
  induction front generalizing opened with
  | nil =>
    cases opened with
    | none =>
      simp only [List.nil_append, decodeAfter_single ascii]
      rfl
    | some o =>
      have low : 0x7F < o.low := refuses o rfl
      have outside : ¬ (o.low ≤ b.toNat ∧ b.toNat ≤ o.high) := by omega
      simp only [List.nil_append, decodeAfter, step, if_neg outside, openWith_single ascii]
      rfl
  | cons c more ih =>
    have later : ∀ o ∈ (step opened c).2, o.RefusesAscii := by
      intro o isOpened
      exact refusesAscii_of_step isOpened
    simp only [List.cons_append, decodeAfter, ih later, List.append_assoc]

theorem decodeLossy_append_ascii (ascii : b.toNat ≤ 0x7F) (front rest : Bytes) :
    decodeLossy (front ++ b :: rest) =
      decodeLossy front ++ Char.ofNat b.toNat :: decodeLossy rest := by
  have split : decodeAfter none (front ++ b :: rest) =
      decodeAfter none front ++ .scalar (Char.ofNat b.toNat) :: decodeAfter none rest :=
    decodeAfter_append_ascii (by simp) ascii front rest
  simp only [decodeLossy, decode, split, List.map_append, List.map_cons]

end Afresh

theorem mem_of_mem_encode (ascii : b.toNat ≤ 0x7F) {t : Text} (mem : b ∈ encode t) :
    Char.ofNat b.toNat ∈ t := by
  rcases List.append_of_mem mem with ⟨front, rest, written⟩
  have decoded := decodeLossy_encode t
  rw [written, decodeLossy_append_ascii ascii] at decoded
  rw [← decoded]
  exact List.mem_append_right _ List.mem_cons_self

theorem encode_append (t u : Text) : encode (t ++ u) = encode t ++ encode u :=
  List.flatMap_append

theorem encode_ne_nil {t : Text} (nonempty : t ≠ []) : encode t ≠ [] := by
  rcases List.exists_cons_of_ne_nil nonempty with ⟨c, rest, rfl⟩
  simp [encode, String.utf8EncodeChar_ne_nil]

/-- Whether bytes are those of a text. -/
def IsText (bytes : Bytes) : Prop :=
  ∃ t : Text, bytes = encode t

theorem IsText.append {bytes others : Bytes} (isText : IsText bytes) (othersAre : IsText others) :
    IsText (bytes ++ others) := by
  rcases isText with ⟨t, rfl⟩
  rcases othersAre with ⟨u, rfl⟩
  exact ⟨t ++ u, (encode_append t u).symm⟩

theorem IsText.intercalate {sep : Bytes} {pieces : List Bytes} (sepIs : IsText sep)
    (piecesAre : ∀ piece ∈ pieces, IsText piece) : IsText (sep.intercalate pieces) := by
  induction pieces with
  | nil => exact ⟨[], rfl⟩
  | cons piece rest ih =>
    have pieceIs : IsText piece := piecesAre piece List.mem_cons_self
    have restIs : IsText (sep.intercalate rest) := by
      apply ih
      intro other mem
      exact piecesAre other (List.mem_cons_of_mem piece mem)
    cases rest with
    | nil =>
      simp only [List.intercalate_singleton]
      exact pieceIs
    | cons next others =>
      simp only [List.intercalate_cons_cons]
      exact (pieceIs.append sepIs).append restIs

end Utf8

end MarkdownLinks
