import MarkdownLinks.Proofs.Text.Decoding

/-!
# What decoding drops

Decoding that leaves out what is malformed gives the same text as a scan that looks for a character
at each byte and drops the byte if there is none.  A malformed piece is dropped as a whole by the
one and byte by byte by the other: no character begins at its first byte, since decoding would have
found it there, and none at the others, since a byte that continues a sequence never begins one.
-/

namespace MarkdownLinks

namespace Utf8

/-- Whether the bytes of a character come first. -/
def StartsWithChar (bytes : Bytes) : Prop :=
  ∃ c, String.utf8EncodeChar c <+: bytes

/-- What a scan from left to right takes from bytes: a character wherever the bytes of one come
next.  Where they do not, one byte is dropped. -/
inductive Scans : Bytes → Text → Prop where
  | done : Scans [] []
  | take (c : Char) {rest : Bytes} {t : Text} (later : Scans rest t) :
      Scans (String.utf8EncodeChar c ++ rest) (c :: t)
  | drop {b : UInt8} {rest : Bytes} {t : Text} (noChar : ¬ StartsWithChar (b :: rest))
      (later : Scans rest t) : Scans (b :: rest) t

section Unique

variable {b : UInt8} {c d : Char} {bytes rest more : Bytes} {t u : Text}

/-- No character's bytes are the beginning of another's. -/
theorem encodeChar_append_inj
    (same : String.utf8EncodeChar c ++ rest = String.utf8EncodeChar d ++ more) :
    c = d ∧ rest = more := by
  have pieces := congrArg (decodeAfter none) same
  rw [decodeAfter_encodeChar, decodeAfter_encodeChar] at pieces
  have sameChar : c = d := Piece.scalar.inj (List.cons.inj pieces).1
  subst sameChar
  exact ⟨rfl, List.append_cancel_left same⟩

theorem startsWithChar_append (c : Char) (rest : Bytes) :
    StartsWithChar (String.utf8EncodeChar c ++ rest) :=
  ⟨c, List.prefix_append _ _⟩

theorem encodeChar_append_ne_nil : String.utf8EncodeChar c ++ rest ≠ [] :=
  List.append_ne_nil_of_left_ne_nil String.utf8EncodeChar_ne_nil _

theorem Scans.of_nil (scans : Scans [] t) : t = [] := by
  generalize whole : [] = bytes at scans
  cases scans with
  | done => rfl
  | take c later => exact absurd whole.symm encodeChar_append_ne_nil
  | drop noChar later => cases whole

theorem Scans.of_char (scans : Scans (String.utf8EncodeChar c ++ rest) t) :
    ∃ u, t = c :: u ∧ Scans rest u := by
  generalize whole : String.utf8EncodeChar c ++ rest = bytes at scans
  cases scans with
  | done => exact absurd whole encodeChar_append_ne_nil
  | take d later =>
    rcases encodeChar_append_inj whole with ⟨rfl, rfl⟩
    exact ⟨_, rfl, later⟩
  | drop noChar later =>
    rw [← whole] at noChar
    exact absurd (startsWithChar_append c rest) noChar

theorem Scans.of_noChar (noChar : ¬ StartsWithChar (b :: rest)) (scans : Scans (b :: rest) t) :
    Scans rest t := by
  generalize whole : b :: rest = bytes at scans
  cases scans with
  | done => cases whole
  | take c later =>
    rw [whole] at noChar
    exact absurd (startsWithChar_append c _) noChar
  | drop _ later =>
    cases whole
    exact later

/-- A scan gives one text only. -/
theorem Scans.unique (first : Scans bytes t) (second : Scans bytes u) : t = u := by
  induction first generalizing u with
  | done => exact second.of_nil.symm
  | take c later ih =>
    rcases second.of_char with ⟨rest, rfl, others⟩
    rw [ih others]
  | drop noChar later ih => exact ih (second.of_noChar noChar)

end Unique

section Dropped

variable {b : UInt8} {bytes rest : Bytes} {pieces : List Piece} {t : Text} {o : Opened}

theorem not_startsWithChar_of_malformed (cut : decodeAfter none bytes = .malformed rest :: pieces) :
    ¬ StartsWithChar bytes := by
  rintro ⟨c, more, rfl⟩
  rw [decodeAfter_encodeChar] at cut
  cases cut

theorem openWith_continuation (continues : IsContinuation b) :
    openWith b = ([.malformed [b]], none) := by
  rcases continues with ⟨above, under⟩
  simp only [openWith]
  grind

theorem decodeAfter_alone {piece : Piece} (opens : openWith b = ([piece], none)) (rest : Bytes) :
    decodeAfter none (b :: rest) = piece :: decodeAfter none rest := by
  simp only [decodeAfter, step, opens]
  rfl

/-- Bytes that continue a sequence are dropped where none was begun. -/
theorem Scans.continuations (areContinuations : ∀ b ∈ bytes, IsContinuation b)
    (later : Scans rest t) : Scans (bytes ++ rest) t := by
  induction bytes with
  | nil => exact later
  | cons b more ih =>
    have opens := openWith_continuation (areContinuations b List.mem_cons_self)
    have noChar := not_startsWithChar_of_malformed (decodeAfter_alone opens (more ++ rest))
    exact .drop noChar (ih fun c mem => areContinuations c (List.mem_cons_of_mem b mem))

/-- Whether decoding comes to an opened sequence by reading its bytes, all of which but the first
continue it. -/
structure Opened.IsReached (o : Opened) : Prop where
  isBeginning : o.IsBeginning
  reads : ∀ rest, decodeAfter none (o.bytes ++ rest) = decodeAfter (some o) rest
  continued : ∃ lead more, o.bytes = lead :: more ∧ ∀ b ∈ more, IsContinuation b
  bounds : 0x80 ≤ o.low ∧ o.high ≤ 0xBF

theorem Opened.isReached_of_openWith (opens : openWith b = ([], some o))
    (isBeginning : o.IsBeginning) (bytes : o.bytes = [b]) : o.IsReached where
  isBeginning := isBeginning
  reads := by
    intro rest
    rw [bytes, List.singleton_append, decodeAfter_lead opens]
  continued := ⟨b, [], bytes, by simp⟩
  bounds := by
    simp only [openWith] at opens
    grind

theorem Opened.IsReached.next {bits low high more : Nat}
    (reached : IsReached ⟨bytes, bits, low, high, more + 1⟩)
    (range : low ≤ b.toNat ∧ b.toNat ≤ high) :
    IsReached ⟨bytes ++ [b], bits * 64 + (b.toNat - 0x80), 0x80, 0xBF, more⟩ where
  isBeginning := reached.isBeginning b range
  reads := by
    intro rest
    rw [List.append_assoc, List.singleton_append, reached.reads, decodeAfter_next range]
  continued := by
    rcases reached.continued with ⟨lead, others, whole, areContinuations⟩
    have bounds := reached.bounds
    have isContinuation : IsContinuation b := by
      simp only at bounds
      simp only [IsContinuation]
      omega
    refine ⟨lead, others ++ [b], ?_, ?_⟩
    · simp only at whole
      rw [whole, List.cons_append]
    · intro c mem
      rcases List.mem_append.1 mem with earlier | isLast
      · exact areContinuations c earlier
      · rw [List.mem_singleton.1 isLast]
        exact isContinuation
  bounds := by simp

/-- A sequence that is broken off is dropped byte by byte. -/
theorem Scans.brokenOff (reached : o.IsReached)
    (cut : decodeAfter (some o) rest = .malformed o.bytes :: pieces) (later : Scans rest t) :
    Scans (o.bytes ++ rest) t := by
  rw [← reached.reads] at cut
  have noChar := not_startsWithChar_of_malformed cut
  rcases reached.continued with ⟨lead, more, whole, areContinuations⟩
  rw [whole] at noChar ⊢
  exact .drop noChar (later.continuations areContinuations)

end Dropped

/-- The characters among pieces. -/
def scalars (pieces : List Piece) : Text :=
  pieces.filterMap fun
    | .scalar c => some c
    | .malformed _ => none

section Step

variable {b : UInt8} {rest : Bytes} {o : Opened}

/-- A byte between two sequences is a character, begins one that is scanned on, or is dropped. -/
theorem scans_first (b : UInt8) (afresh : Scans rest (scalars (decodeAfter none rest)))
    (goesOn : ∀ o : Opened, o.IsReached →
      Scans (o.bytes ++ rest) (scalars (decodeAfter (some o) rest))) :
    Scans (b :: rest) (scalars (decodeAfter none (b :: rest))) := by
  rcases openWith_cases b with ⟨c, opens, written⟩ | ⟨o, opens, isBeginning, bytes⟩ | opens
  · have taken := Scans.take c afresh
    rw [written, List.singleton_append] at taken
    rw [decodeAfter_alone opens]
    exact taken
  · have later := goesOn o (Opened.isReached_of_openWith opens isBeginning bytes)
    rw [bytes, List.singleton_append] at later
    rw [decodeAfter_lead opens]
    exact later
  · have cut := decodeAfter_alone opens rest
    have dropped := Scans.drop (not_startsWithChar_of_malformed cut) afresh
    rw [cut]
    exact dropped

/-- A byte within the bounds completes a character or goes on with one. -/
theorem scans_within (isReached : o.IsReached) (range : o.low ≤ b.toNat ∧ b.toNat ≤ o.high)
    (afresh : Scans rest (scalars (decodeAfter none rest)))
    (goesOn : ∀ o : Opened, o.IsReached →
      Scans (o.bytes ++ rest) (scalars (decodeAfter (some o) rest))) :
    Scans (o.bytes ++ b :: rest) (scalars (decodeAfter (some o) (b :: rest))) := by
  rcases o with ⟨bytes, bits, low, high, more⟩
  cases more with
  | zero =>
    have written := isReached.isBeginning b range
    have taken := Scans.take (Char.ofNat (bits * 64 + (b.toNat - 0x80))) afresh
    rw [written, List.append_assoc, List.singleton_append] at taken
    rw [decodeAfter_last range]
    exact taken
  | succ more =>
    have later := goesOn _ (isReached.next range)
    rw [List.append_assoc, List.singleton_append] at later
    rw [decodeAfter_next range]
    exact later

theorem decodeAfter_brokenOff (rest : Bytes)
    (outside : ¬ (o.low ≤ b.toNat ∧ b.toNat ≤ o.high)) :
    decodeAfter (some o) (b :: rest) = .malformed o.bytes :: decodeAfter none (b :: rest) := by
  simp only [decodeAfter, step, if_neg outside]
  rfl

end Step

/-- The characters that are decoded after an opened sequence are those that a scan takes, from the
bytes of that sequence on. -/
theorem scans_decodeAfter {opened : Option Opened} (reached : ∀ o ∈ opened, o.IsReached)
    (bytes : Bytes) : Scans (openedBytes opened ++ bytes) (scalars (decodeAfter opened bytes)) := by
  induction bytes generalizing opened with
  | nil =>
    cases opened with
    | none => exact .done
    | some o =>
      have cut : decodeAfter (some o) [] = [.malformed o.bytes] := rfl
      rw [cut]
      exact Scans.brokenOff (reached o rfl) cut .done
  | cons b rest ih =>
    have afresh : Scans rest (scalars (decodeAfter none rest)) := @ih none (by simp)
    have goesOn : ∀ o : Opened, o.IsReached →
        Scans (o.bytes ++ rest) (scalars (decodeAfter (some o) rest)) := by
      intro o isReached
      exact @ih (some o) (by simpa using isReached)
    cases opened with
    | none => exact scans_first b afresh goesOn
    | some o =>
      have isReached : o.IsReached := reached o rfl
      by_cases range : o.low ≤ b.toNat ∧ b.toNat ≤ o.high
      · exact scans_within isReached range afresh goesOn
      · -- The byte breaks the sequence off and is read as the first one of what follows.
        have cut := decodeAfter_brokenOff rest range
        have dropped := Scans.brokenOff isReached cut (scans_first b afresh goesOn)
        rw [cut]
        exact dropped

/-- The text without what is malformed is the one that a scan takes from the bytes. -/
theorem scans_iff {bytes : Bytes} {t : Text} : Scans bytes t ↔ t = decodeDropping bytes := by
  have taken : Scans bytes (decodeDropping bytes) :=
    @scans_decodeAfter none (by simp) bytes
  constructor
  · intro scans
    exact scans.unique taken
  · rintro rfl
    exact taken

end Utf8

end MarkdownLinks
