import MarkdownLinks.Proofs.Text.Lowercased
import MarkdownLinks.Text.Blank
import MarkdownLinks.Text.Word

/-!
# Blanks and other classes of characters

A blank is not a word character, and it has no part in the change of case: it is its own lower case,
and it is neither cased nor skipped where the letters around a sigma are looked for.  No mark of
ASCII but `_` is a word character.
-/

namespace MarkdownLinks

namespace CharClass

/-- Classes without a common code point in their ranges have no common character. -/
theorem contains_eq_false_of_apart {cls other : CharClass} {c : Char}
    (apart : ∀ r ∈ cls.ranges, ∀ s ∈ other.ranges, r.2 < s.1 ∨ s.2 < r.1)
    (isMember : cls.contains c = true) : other.contains c = false := by
  apply Bool.eq_false_iff.2
  intro inOther
  simp only [contains, covers, List.any_eq_true, Bool.and_eq_true, decide_eq_true_eq]
    at isMember inOther
  rcases isMember with ⟨r, rMem, rLow, rHigh⟩
  rcases inOther with ⟨s, sMem, sLow, sHigh⟩
  have := apart r rMem s sMem
  omega

end CharClass

variable {c : Char}

theorem not_isBlank_of_isWordChar (isWord : isWordChar c = true) : isBlank c = false :=
  CharClass.contains_eq_false_of_apart (by decide +kernel) isWord

/-- The characters of ASCII but letters, digits and `_`. -/
def asciiMarks : CharClass where
  ranges := [(0x00, 0x2F), (0x3A, 0x40), (0x5B, 0x5E), (0x60, 0x60), (0x7B, 0x7F)]

theorem not_isWordChar_of_mark (isMark : asciiMarks.contains c = true) : isWordChar c = false :=
  CharClass.contains_eq_false_of_apart (by decide +kernel) isMark

theorem not_isCased_of_isBlank (blank : isBlank c = true) : isCased c = false :=
  CharClass.contains_eq_false_of_apart (by decide +kernel) blank

theorem not_isCaseIgnorable_of_isBlank (blank : isBlank c = true) : isCaseIgnorable c = false :=
  CharClass.contains_eq_false_of_apart (by decide +kernel) blank

theorem ne_of_isBlank {other : Char} (blank : isBlank c = true) (notBlank : isBlank other = false) :
    c ≠ other := by
  rintro rfl
  rw [blank] at notBlank
  cases notBlank

theorem lowercaseCode_of_isBlank (blank : isBlank c = true) : lowercaseCode c.toNat = c.toNat := by
  have apart : ∀ r ∈ whiteSpace.ranges, ∀ run ∈ lowercaseRuns,
      r.2 < run.first ∨ run.last < r.1 := by
    decide +kernel
  apply lowercaseCode_eq_self
  intro run runMem
  apply Bool.eq_false_iff.2
  intro covered
  simp only [isBlank, CharClass.contains, CharClass.covers, List.any_eq_true, Bool.and_eq_true,
    decide_eq_true_eq] at blank
  simp only [CaseRun.covers, Bool.and_eq_true, decide_eq_true_eq] at covered
  rcases blank with ⟨r, rMem, rLow, rHigh⟩
  rcases covered with ⟨⟨runLow, runHigh⟩, -⟩
  have := apart r rMem run runMem
  omega

theorem lowercaseChar_of_isBlank (blank : isBlank c = true) : lowercaseChar c = [c] := by
  have notDotted : c ≠ 'İ' := ne_of_isBlank blank (by decide)
  rw [lowercaseChar, if_neg notDotted, lowercaseCode_of_isBlank blank, Char.ofNat_toNat]

end MarkdownLinks
