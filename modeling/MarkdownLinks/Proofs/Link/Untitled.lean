import Mathlib.Data.List.DropRight
import MarkdownLinks.Proofs.Link.Title

/-!
# What is left of a target

A target ends with a title if two quotes stand at its end, with no such quote between them and white
space before.  It can be cut there in many ways, since any white space but the last may count as
belonging to the text in front; but without all the white space at its end, this text is always the
same.
-/

namespace MarkdownLinks

theorem dropTrailing_eq_rdropWhile {α : Type} (p : α → Bool) (l : List α) :
    dropTrailing p l = l.rdropWhile p := by
  induction l using List.reverseRecOn with
  | nil => rfl
  | append_singleton front last ih =>
    by_cases dropped : p last = true
    · rw [dropTrailing_append_of_eq_nil (by simp [dropTrailing, dropped]), ih,
        List.rdropWhile_concat_pos p front last dropped]
    · have kept : dropTrailing p [last] = [last] := by simp [dropTrailing, dropped]
      rw [dropTrailing_append_of_ne_nil (by simp [kept]), kept,
        List.rdropWhile_concat_neg p front last dropped]

namespace Title

/-- Whether a target is made of a text, white space after it, and a title in quotes at the end. -/
def IsTitled (quote : Char) (front target : Text) : Prop :=
  ∃ blanks title : Text, blanks ≠ [] ∧ (∀ c ∈ blanks, isBlank c = true) ∧ quote ∉ title ∧
    target = front ++ blanks ++ quote :: title ++ [quote]

/-- What is left of a target: the text before its title, without white space at the end, or the
target itself if it has no title. -/
inductive Leaves (quote : Char) (target : Text) : Text → Prop where
  | titled {front : Text} (isTitled : IsTitled quote front target) :
      Leaves quote target (front.rdropWhile isBlank)
  | plain (noTitle : ∀ front, ¬ IsTitled quote front target) : Leaves quote target target

variable {quote : Char} {front target left : Text}

theorem strip_of_isTitled (isTitled : IsTitled quote front target) :
    strip quote target = front.rdropWhile isBlank := by
  rcases isTitled with ⟨blanks, title, blanksNe, areBlank, noQuote, rfl⟩
  exact strip_of_title blanksNe areBlank noQuote front

/-- Two quotes with white space before them are found from the end. -/
theorem isTitled_of_reverse {beforeLast others : Text} {blank opening : Char}
    (blankIs : isBlank blank = true) (reversed : target.reverse = quote :: beforeLast)
    (found : beforeLast.dropWhile (· != quote) = opening :: blank :: others) :
    IsTitled quote others.reverse target := by
  have isQuote : opening = quote := by
    have stops := List.head?_dropWhile_not (· != quote) beforeLast
    simpa [found] using stops
  have noQuote : quote ∉ (beforeLast.takeWhile (· != quote)).reverse := by
    intro mem
    have passes := List.mem_takeWhile_imp (List.mem_reverse.1 mem)
    simp at passes
  have cut := List.takeWhile_append_dropWhile (p := (· != quote)) (l := beforeLast)
  rw [found, isQuote] at cut
  generalize beforeLast.takeWhile (· != quote) = title at cut noQuote
  refine ⟨[blank], title.reverse, List.cons_ne_nil blank [], by simpa using blankIs, noQuote, ?_⟩
  rw [← List.reverse_reverse target, reversed, ← cut]
  simp

theorem strip_of_not_isTitled (noTitle : ∀ front, ¬ IsTitled quote front target) :
    strip quote target = target := by
  unfold strip
  split
  · rfl
  · next last beforeLast reversed =>
    split
    · next isQuote =>
      split
      · next opening before found =>
        split
        · next startsBlank =>
          exfalso
          cases before with
          | nil => cases startsBlank
          | cons blank others =>
            rw [isQuote] at reversed
            exact noTitle _ (isTitled_of_reverse startsBlank reversed found)
        · rfl
      · rfl
    · rfl

/-- What is left is what stripping gives, however the target is cut. -/
theorem leaves_iff : Leaves quote target left ↔ left = strip quote target := by
  constructor
  · intro leaves
    cases leaves with
    | titled isTitled => exact (strip_of_isTitled isTitled).symm
    | plain noTitle => exact (strip_of_not_isTitled noTitle).symm
  · rintro rfl
    by_cases titled : ∃ front, IsTitled quote front target
    · rcases titled with ⟨front, isTitled⟩
      rw [strip_of_isTitled isTitled]
      exact .titled isTitled
    · have noTitle := not_exists.1 titled
      rw [strip_of_not_isTitled noTitle]
      exact .plain noTitle

theorem stripAll_eq (raw : Text) :
    stripAll raw =
      ((strip '\'' (strip '"' raw)).dropWhile isBlank).rdropWhile isBlank := by
  rw [stripAll, trimBlank, trimBoth, dropTrailing_eq_rdropWhile]

theorem stripAll_isInfix (raw : Text) : stripAll raw <:+: raw := by
  have double := strip_isPrefix '"' raw
  have single := strip_isPrefix '\'' (strip '"' raw)
  have started : (strip '\'' (strip '"' raw)).dropWhile isBlank <:+ strip '\'' (strip '"' raw) :=
    List.dropWhile_suffix isBlank
  rw [stripAll_eq]
  exact ((List.rdropWhile_prefix _ _).isInfix.trans started.isInfix).trans
    (single.trans double).isInfix

theorem not_isBlank_of_head?_stripAll (raw : Text) :
    ∀ c ∈ (stripAll raw).head?, isBlank c = false := by
  intro c isFirst
  have stops := List.head?_dropWhile_not isBlank (strip '\'' (strip '"' raw))
  rcases List.rdropWhile_prefix isBlank ((strip '\'' (strip '"' raw)).dropWhile isBlank) with
    ⟨blanks, written⟩
  rw [← written, List.head?_append, ← stripAll_eq, Option.mem_def.1 isFirst] at stops
  simpa using stops

/-- What is left of a target is well determined for each kind of quotes.  A target is stripped to
what is left of it without a title in double quotes, then without one in single quotes, and without
white space at both ends; this is a part of the target as it is written. -/
theorem stripAll_exact (raw : Text) :
    (∀ (quote : Char) (target : Text), ∃! left, Leaves quote target left) ∧
      (∃ double single, Leaves '"' raw double ∧ Leaves '\'' double single ∧
        stripAll raw = (single.dropWhile isBlank).rdropWhile isBlank) ∧
      stripAll raw <:+: raw ∧
      (∀ c ∈ (stripAll raw).head?, isBlank c = false) ∧
      ∀ c ∈ (stripAll raw).getLast?, isBlank c = false := by
  refine ⟨?_, ?_, stripAll_isInfix raw, ?_, ?_⟩
  · intro quote target
    refine ⟨strip quote target, leaves_iff.2 rfl, ?_⟩
    intro left leaves
    exact leaves_iff.1 leaves
  · exact ⟨_, _, leaves_iff.2 rfl, leaves_iff.2 rfl, stripAll_eq raw⟩
  · exact not_isBlank_of_head?_stripAll raw
  · exact not_of_getLast?_dropTrailing _

end Title

end MarkdownLinks
