import MarkdownLinks.Proofs.Text.Utf8

/-!
# What can be decoded

Bytes are the encoding of a text exactly if decoding finds nothing malformed in them, and then the
text is the one that decoding gives.  So no two strings of bytes are read as the same text unless
something in them is left out or replaced.
-/

namespace MarkdownLinks

namespace Utf8

section Sequences

variable {lead second third last : UInt8}

/-- A byte is determined by its value. -/
theorem ofNat_eq {b : UInt8} {n : Nat} (same : n = b.toNat) : UInt8.ofNat n = b := by
  subst same
  exact UInt8.ofNat_toNat

theorem encodeChar_ofNat {n : Nat} (valid : n.isValidChar) :
    String.utf8EncodeChar (Char.ofNat n) =
      if n ≤ 0x7F then [UInt8.ofNat n]
      else if n ≤ 0x7FF then [UInt8.ofNat (n / 64 % 0x20 + 0xC0), UInt8.ofNat (n % 0x40 + 0x80)]
      else if n ≤ 0xFFFF then
        [UInt8.ofNat (n / 4096 % 0x10 + 0xE0), UInt8.ofNat (n / 64 % 0x40 + 0x80),
          UInt8.ofNat (n % 0x40 + 0x80)]
      else
        [UInt8.ofNat (n / 262144 % 0x08 + 0xF0), UInt8.ofNat (n / 4096 % 0x40 + 0x80),
          UInt8.ofNat (n / 64 % 0x40 + 0x80), UInt8.ofNat (n % 0x40 + 0x80)] := by
  have code : (Char.ofNat n).val.toNat = n := by
    rw [Char.ofNat, dif_pos valid]
    rfl
  simp only [String.utf8EncodeChar, code]

theorem encodeChar_single (range : lead.toNat ≤ 0x7F) :
    String.utf8EncodeChar (Char.ofNat lead.toNat) = [lead] := by
  have valid : lead.toNat.isValidChar := .inl (by omega)
  rw [encodeChar_ofNat valid, if_pos range, ofNat_eq rfl]

theorem encodeChar_double (range : 0xC2 ≤ lead.toNat ∧ lead.toNat ≤ 0xDF)
    (lastRange : IsContinuation last) :
    String.utf8EncodeChar (Char.ofNat ((lead.toNat - 0xC0) * 64 + (last.toNat - 0x80))) =
      [lead, last] := by
  rcases lastRange with ⟨above, under⟩
  rw [encodeChar_ofNat (.inl (by omega)), if_neg (by omega), if_pos (by omega),
    ofNat_eq (b := lead) (by omega), ofNat_eq (b := last) (by omega)]

theorem encodeChar_triple (range : 0xE0 ≤ lead.toNat ∧ lead.toNat ≤ 0xEF)
    (secondRange : IsContinuation second) (notOverlong : lead.toNat = 0xE0 → 0xA0 ≤ second.toNat)
    (notSurrogate : lead.toNat = 0xED → second.toNat ≤ 0x9F) (lastRange : IsContinuation last) :
    String.utf8EncodeChar (Char.ofNat
      (((lead.toNat - 0xE0) * 64 + (second.toNat - 0x80)) * 64 + (last.toNat - 0x80))) =
      [lead, second, last] := by
  rcases secondRange with ⟨secondAbove, secondUnder⟩
  rcases lastRange with ⟨lastAbove, lastUnder⟩
  have valid : (((lead.toNat - 0xE0) * 64 + (second.toNat - 0x80)) * 64 +
      (last.toNat - 0x80)).isValidChar := by
    simp only [Nat.isValidChar]
    omega
  rw [encodeChar_ofNat valid, if_neg (by omega), if_neg (by omega), if_pos (by omega),
    ofNat_eq (b := lead) (by omega), ofNat_eq (b := second) (by omega),
    ofNat_eq (b := last) (by omega)]

theorem encodeChar_quadruple (range : 0xF0 ≤ lead.toNat ∧ lead.toNat ≤ 0xF4)
    (secondRange : IsContinuation second) (notOverlong : lead.toNat = 0xF0 → 0x90 ≤ second.toNat)
    (notTooLarge : lead.toNat = 0xF4 → second.toNat ≤ 0x8F) (thirdRange : IsContinuation third)
    (lastRange : IsContinuation last) :
    String.utf8EncodeChar (Char.ofNat
      ((((lead.toNat - 0xF0) * 64 + (second.toNat - 0x80)) * 64 + (third.toNat - 0x80)) * 64 +
        (last.toNat - 0x80))) =
      [lead, second, third, last] := by
  rcases secondRange with ⟨secondAbove, secondUnder⟩
  rcases thirdRange with ⟨thirdAbove, thirdUnder⟩
  rcases lastRange with ⟨lastAbove, lastUnder⟩
  have valid : ((((lead.toNat - 0xF0) * 64 + (second.toNat - 0x80)) * 64 +
      (third.toNat - 0x80)) * 64 + (last.toNat - 0x80)).isValidChar := by
    simp only [Nat.isValidChar]
    omega
  rw [encodeChar_ofNat valid, if_neg (by omega), if_neg (by omega), if_neg (by omega),
    ofNat_eq (b := lead) (by omega), ofNat_eq (b := second) (by omega),
    ofNat_eq (b := third) (by omega), ofNat_eq (b := last) (by omega)]

end Sequences

section Beginnings

variable {b : UInt8} {opened : Option Opened}

/-- Whether a sequence that was opened with these bytes and bits becomes that of a character, and
keeps the bytes, whatever is read within the bounds. -/
def Completes (bytes : Bytes) (bits low high : Nat) : Nat → Prop
  | 0 => ∀ b : UInt8, low ≤ b.toNat ∧ b.toNat ≤ high →
      String.utf8EncodeChar (Char.ofNat (bits * 64 + (b.toNat - 0x80))) = bytes ++ [b]
  | more + 1 => ∀ b : UInt8, low ≤ b.toNat ∧ b.toNat ≤ high →
      Completes (bytes ++ [b]) (bits * 64 + (b.toNat - 0x80)) 0x80 0xBF more

/-- Whether an opened sequence is the beginning of a character's bytes. -/
def Opened.IsBeginning (o : Opened) : Prop :=
  Completes o.bytes o.bits o.low o.high o.more

/-- The bytes that were read of a sequence that is open. -/
def openedBytes : Option Opened → Bytes
  | none => []
  | some o => o.bytes

/-- What a byte between two sequences can be: a character, the beginning of one, or malformed. -/
theorem openWith_cases (b : UInt8) :
    (∃ c, openWith b = ([.scalar c], none) ∧ String.utf8EncodeChar c = [b]) ∨
      (∃ o, openWith b = ([], some o) ∧ o.IsBeginning ∧ o.bytes = [b]) ∨
        openWith b = ([.malformed [b]], none) := by
  by_cases single : b.toNat ≤ 0x7F
  · exact .inl ⟨_, openWith_single single, encodeChar_single single⟩
  · by_cases double : 0xC2 ≤ b.toNat ∧ b.toNat ≤ 0xDF
    · refine .inr (.inl ⟨_, openWith_double double, ?_, rfl⟩)
      intro last lastRange
      exact encodeChar_double double lastRange
    · by_cases triple : 0xE0 ≤ b.toNat ∧ b.toNat ≤ 0xEF
      · refine .inr (.inl ⟨_, openWith_triple triple, ?_, rfl⟩)
        intro second secondRange last lastRange
        simp only at secondRange
        apply encodeChar_triple triple _ _ _ lastRange
        · constructor <;> grind
        · grind
        · grind
      · by_cases quadruple : 0xF0 ≤ b.toNat ∧ b.toNat ≤ 0xF4
        · refine .inr (.inl ⟨_, openWith_quadruple quadruple, ?_, rfl⟩)
          intro second secondRange third thirdRange last lastRange
          simp only at secondRange
          apply encodeChar_quadruple quadruple _ _ _ thirdRange lastRange
          · constructor <;> grind
          · grind
          · grind
        · refine .inr (.inr ?_)
          simp only [openWith]
          grind

/-- Reading a byte completes a character, goes on with one, or finds something malformed. -/
theorem step_cases (begins : ∀ o ∈ opened, o.IsBeginning) (b : UInt8) :
    (∃ c, step opened b = ([.scalar c], none) ∧
        String.utf8EncodeChar c = openedBytes opened ++ [b]) ∨
      (∃ o, step opened b = ([], some o) ∧ o.IsBeginning ∧ o.bytes = openedBytes opened ++ [b]) ∨
        ∃ bytes pieces, (step opened b).1 = .malformed bytes :: pieces := by
  cases opened with
  | none =>
    rcases openWith_cases b with single | beginning | malformed
    · exact .inl single
    · exact .inr (.inl beginning)
    · exact .inr (.inr ⟨[b], [], congrArg Prod.fst malformed⟩)
  | some o =>
    have completes : Completes o.bytes o.bits o.low o.high o.more := begins o rfl
    simp only [step]
    split
    · next range =>
      split
      · next isLast =>
        rw [isLast] at completes
        exact .inl ⟨_, rfl, completes b range⟩
      · next more isNotLast =>
        rw [isNotLast] at completes
        exact .inr (.inl ⟨_, rfl, completes b range, rfl⟩)
    · exact .inr (.inr ⟨o.bytes, (openWith b).1, rfl⟩)

end Beginnings

/-- If nothing malformed is found, the bytes are those of the characters that are. -/
theorem encode_of_decodeAfter {opened : Option Opened} {bytes : Bytes} {t : Text}
    (begins : ∀ o ∈ opened, o.IsBeginning) (decoded : decodeAfter opened bytes = t.map .scalar) :
    openedBytes opened ++ bytes = encode t := by
  induction bytes generalizing opened t with
  | nil =>
    cases opened with
    | none =>
      rw [decodeAfter, eq_comm, List.map_eq_nil_iff] at decoded
      rw [decoded]
      rfl
    | some o =>
      cases t with
      | nil => cases decoded
      | cons c rest => cases decoded
  | cons b rest ih =>
    simp only [decodeAfter] at decoded
    rcases step_cases begins b with ⟨c, stepped, written⟩ | ⟨o, stepped, isBeginning, bytes⟩ |
      ⟨bytes, pieces, malformed⟩
    · rw [stepped] at decoded
      cases t with
      | nil => cases decoded
      | cons first more =>
        simp only [List.singleton_append, List.map_cons, List.cons.injEq, Piece.scalar.injEq] at decoded
        rcases decoded with ⟨rfl, later⟩
        have restWritten := ih (by simp) later
        calc openedBytes opened ++ b :: rest
            = (openedBytes opened ++ [b]) ++ rest := by simp
          _ = String.utf8EncodeChar c ++ encode more := by rw [written, ← restWritten]; rfl
          _ = encode (c :: more) := rfl
    · rw [stepped, List.nil_append] at decoded
      have restWritten := ih (by simpa using isBeginning) decoded
      rw [openedBytes, bytes, List.append_assoc] at restWritten
      exact restWritten
    · rw [malformed] at decoded
      cases t with
      | nil => cases decoded
      | cons c more => cases decoded

theorem decode?_eq_some_iff_decode {bytes : Bytes} {t : Text} :
    decode? bytes = some t ↔ decode bytes = t.map .scalar := by
  rw [decode?]
  generalize decode bytes = pieces
  induction pieces generalizing t with
  | nil => cases t <;> simp
  | cons piece rest ih =>
    rw [List.mapM_cons]
    cases piece with
    | malformed bytes => cases t <;> simp
    | scalar c =>
      cases t with
      | nil => simp [Option.bind_eq_some_iff]
      | cons first more =>
        rw [Option.bind_eq_bind, Option.bind_some, Option.bind_eq_bind, Option.bind_eq_some_iff]
        simp only [ih, List.map_cons, List.cons.injEq, Piece.scalar.injEq, Option.pure_def,
          Option.some.injEq]
        constructor
        · rintro ⟨_, later, rfl, rfl⟩
          exact ⟨rfl, later⟩
        · rintro ⟨rfl, later⟩
          exact ⟨more, later, rfl, rfl⟩

/-- A text is what bytes are decoded to exactly if they are its encoding. -/
theorem decode?_eq_some_iff {bytes : Bytes} {t : Text} :
    decode? bytes = some t ↔ bytes = encode t := by
  rw [decode?_eq_some_iff_decode]
  constructor
  · exact encode_of_decodeAfter (by simp)
  · rintro rfl
    exact decode_encode t

theorem isText_iff {bytes : Bytes} : IsText bytes ↔ ∃ t, decode? bytes = some t := by
  simp only [IsText, decode?_eq_some_iff]

theorem decode?_eq_none_iff {bytes : Bytes} : decode? bytes = none ↔ ¬ IsText bytes := by
  rw [isText_iff, ← Option.isSome_iff_exists, Option.not_isSome_iff_eq_none]

/-- What stands after an ASCII byte of a text is a text. -/
theorem IsText.of_append_cons {b : UInt8} (ascii : b.toNat ≤ 0x7F) {front rest : Bytes}
    (isText : IsText (front ++ b :: rest)) : IsText rest := by
  rcases isText_iff.1 isText with ⟨t, decoded⟩
  rw [decode?_eq_some_iff_decode, decode, decodeAfter_append_ascii (by simp) ascii] at decoded
  rcases List.append_eq_map_iff.1 decoded with ⟨_, after, -, -, afterDecoded⟩
  rcases List.map_eq_cons_iff.1 afterDecoded with ⟨_, u, -, -, restDecoded⟩
  exact isText_iff.2 ⟨u, decode?_eq_some_iff_decode.2 restDecoded.symm⟩

/-- Every byte leaves something in the text. -/
theorem decodeLossy_ne_nil {bytes : Bytes} (nonempty : bytes ≠ []) : decodeLossy bytes ≠ [] := by
  intro empty
  have noPieces : decodeAfter none bytes = ([] : Text).map .scalar := List.map_eq_nil_iff.1 empty
  have nothingOpen : ∀ o ∈ (none : Option Opened), o.IsBeginning := by simp
  exact nonempty (encode_of_decodeAfter nothingOpen noPieces)

end Utf8

end MarkdownLinks
