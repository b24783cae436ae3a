import MarkdownLinks.Proofs.Document
import MarkdownLinks.Proofs.Text.Dropping
import MarkdownLinks.Proofs.Text.LineEnding

/-!
# What is read from a file

The bytes of a file are scanned for characters, and then each line ending in the scanned text
becomes one newline.  So a text without carriage returns is read back from its bytes, whichever
line endings it was written with.
-/

namespace MarkdownLinks

namespace LineEnding

/-- Every line ending turned into one newline, in one pass from left to right. -/
def unifyOnce : Text → Text
  | [] => []
  | '\r' :: '\n' :: rest => '\n' :: unifyOnce rest
  | '\r' :: rest => '\n' :: unifyOnce rest
  | c :: rest => c :: unifyOnce rest

/-- The text with every newline written as a carriage return. -/
def toCr (t : Text) : Text :=
  t.map fun c => if c = '\n' then '\r' else c

variable {t : Text}

theorem joinCrLf_cons_of_ne {c : Char} (notReturn : c ≠ '\r') (rest : Text) :
    joinCrLf (c :: rest) = c :: joinCrLf rest := by
  rw [joinCrLf]
  intro more isReturn
  exact absurd isReturn notReturn

theorem unify_eq_unifyOnce (t : Text) : unify t = unifyOnce t := by
  fun_induction unifyOnce t with
  | case1 => rfl
  | case2 rest ih => rw [← ih, unify, unify, joinCrLf, List.map_cons, if_neg (by decide)]
  | case3 rest notBoth ih =>
    rw [← ih, unify, unify, joinCrLf, List.map_cons, if_pos rfl]
    intro more _
    exact notBoth more
  | case4 c rest _ notReturn ih =>
    have isOther : c ≠ '\r' := notReturn
    rw [← ih, unify, unify, joinCrLf_cons_of_ne isOther, List.map_cons, if_neg isOther]

theorem return_not_mem_unify (t : Text) : '\r' ∉ unify t := by
  intro mem
  rcases List.mem_map.1 mem with ⟨c, -, isReturn⟩
  split at isReturn
  · cases isReturn
  · next isOther => exact isOther isReturn

theorem joinCrLf_eq_self_of_noNewline (noNewline : '\n' ∉ t) : joinCrLf t = t := by
  fun_induction joinCrLf t with
  | case1 => rfl
  | case2 rest ih => simp at noNewline
  | case3 c rest _ ih =>
    rw [ih]
    intro mem
    exact noNewline (List.mem_cons_of_mem c mem)

theorem joinCrLf_toCrLf (noReturn : '\r' ∉ t) : joinCrLf (toCrLf t) = t := by
  induction t with
  | nil => rfl
  | cons c rest ih =>
    have restRead := ih fun mem => noReturn (List.mem_cons_of_mem c mem)
    by_cases isNewline : c = '\n'
    · rw [isNewline, toCrLf_cons_newline, joinCrLf, restRead]
    · have notReturn : c ≠ '\r' := by
        rintro rfl
        exact noReturn List.mem_cons_self
      rw [toCrLf_cons_of_ne isNewline, joinCrLf_cons_of_ne notReturn, restRead]

theorem newline_not_mem_toCr (t : Text) : '\n' ∉ toCr t := by
  intro mem
  rcases List.mem_map.1 mem with ⟨c, -, isNewline⟩
  split at isNewline
  · cases isNewline
  · next isOther => exact isOther isNewline

theorem unify_toCrLf (noReturn : '\r' ∉ t) : unify (toCrLf t) = t := by
  have unified : unify t = t := unify_eq_self noReturn
  rw [unify, joinCrLf_eq_self noReturn] at unified
  rw [unify, joinCrLf_toCrLf noReturn, unified]

theorem unify_toCr (noReturn : '\r' ∉ t) : unify (toCr t) = t := by
  rw [unify, joinCrLf_eq_self_of_noNewline (newline_not_mem_toCr t), toCr, List.map_map]
  refine (List.map_congr_left ?_).trans (List.map_id' t)
  intro c mem
  have notReturn : c ≠ '\r' := by
    rintro rfl
    exact noReturn mem
  by_cases isNewline : c = '\n'
  · simp [isNewline]
  · simp [isNewline, notReturn]

end LineEnding

namespace Document

variable {disk : Disk} {p : Path} {content : Bytes}

theorem ofBytes_encode_of_unify {t written : Text} (same : LineEnding.unify written = t) :
    ofBytes (Utf8.encode written) = t := by
  rw [ofBytes, Utf8.decodeDropping_encode, same]

/-- What is read from a file: the one text that a scan takes from its bytes, with every line ending
turned into a newline in one pass. -/
theorem read_of_file (found : disk.entry p = .ok (.file (.bytes content))) :
    (∃ scanned, (∀ t, Utf8.Scans content t ↔ t = scanned) ∧
        read disk p = .ok (LineEnding.unifyOnce scanned) ∧
        '\r' ∉ LineEnding.unifyOnce scanned) ∧
      ∀ t, '\r' ∉ t →
        content = Utf8.encode t ∨ content = Utf8.encode (LineEnding.toCrLf t) ∨
          content = Utf8.encode (LineEnding.toCr t) →
        read disk p = .ok t := by
  have isRead : read disk p = .ok (ofBytes content) := read_eq_ok_iff.2 ⟨content, found, rfl⟩
  constructor
  · refine ⟨Utf8.decodeDropping content, fun t => Utf8.scans_iff, ?_, ?_⟩
    · rw [← LineEnding.unify_eq_unifyOnce]
      exact isRead
    · rw [← LineEnding.unify_eq_unifyOnce]
      exact LineEnding.return_not_mem_unify _
  · rintro t noReturn (rfl | rfl | rfl)
    · rw [isRead, ofBytes_encode noReturn]
    · rw [isRead, ofBytes_encode_of_unify (LineEnding.unify_toCrLf noReturn)]
    · rw [isRead, ofBytes_encode_of_unify (LineEnding.unify_toCr noReturn)]

/-- A disk with one file. -/
def fileDisk (content : Bytes) : Disk :=
  Disk.empty.putFile [⟨Utf8.encode "mac.md".toList, by decide⟩] (.bytes content)

/-- A carriage return and a newline, with broken sequences before and between them. -/
def brokenPair : Bytes :=
  [0x61, 0xC3, 0x0D, 0xE2, 0x82, 0x0A, 0x62]

theorem read_of_file_sample :
    (fileDisk brokenPair).entry (.ofText "/mac.md".toList) = .ok (.file (.bytes brokenPair)) ∧
      read (fileDisk brokenPair) (.ofText "/mac.md".toList) = .ok "a\nb".toList ∧
      read (fileDisk (Utf8.encode "a\rb".toList)) (.ofText "/mac.md".toList) =
        .ok "a\nb".toList := by
  have found : ∀ content,
      (fileDisk content).entry (.ofText "/mac.md".toList) = .ok (.file (.bytes content)) :=
    fun _ => rfl
  refine ⟨found brokenPair, ?_, ?_⟩
  · rcases (read_of_file (found brokenPair)).1 with ⟨scanned, unique, isRead, -⟩
    have same := (unique _).1 (Utf8.scans_iff.2 rfl)
    rw [← same] at isRead
    exact isRead
  · exact (read_of_file (found _)).2 "a\nb".toList (by decide) (Or.inr (Or.inr rfl))

end Document

end MarkdownLinks
