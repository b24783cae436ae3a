import MarkdownLinks.Proofs.Slug.Words
import MarkdownLinks.Proofs.Text.Lowercased

/-!
# Slugs of slugs and of joined headings

A slug is its own slug, since it is in lower case and made of words already.  The slug of headings
with blanks between them is made of their slugs: lower case goes part by part there, and no run of
blanks or hyphens reaches over the blanks into a word.
-/

namespace MarkdownLinks

namespace Slug

section Again

variable {heading : Text} {c : Char}

/-- Every character of a slug is its own lower case. -/
theorem lowercaseChar_of_mem_ofHeading (mem : c ∈ ofHeading heading) : lowercaseChar c = [c] := by
  rcases List.mem_cons.1 mem with rfl | inWords
  · decide
  · rcases eq_hyphen_or_mem_of_mem_words inWords with rfl | ⟨fromHeading, -⟩
    · decide
    · exact lowercaseChar_of_mem_lowercase fromHeading

theorem keeps_of_mem_words (mem : c ∈ words heading) : keeps c = true := by
  rcases eq_hyphen_or_mem_of_mem_words mem with rfl | ⟨-, isWord⟩
  · simp [keeps]
  · simp [keeps, isWord]

/-- Of a slug, the mark alone is left out when it is made a slug again. -/
theorem filter_keeps_ofHeading (heading : Text) :
    (ofHeading heading).filter keeps = words heading := by
  have notWord : isWordChar '#' = false := not_isWordChar_of_mark (by decide)
  have notBlank : isBlank '#' = false := by decide
  have markLeftOut : ¬ keeps '#' = true := by simp [keeps, notWord, notBlank]
  rw [ofHeading, List.filter_cons_of_neg markLeftOut]
  apply List.filter_eq_self.2
  intro c mem
  exact keeps_of_mem_words mem

theorem not_separates_of_mem_wordsOf {word : Text} (mem : word ∈ wordsOf heading) :
    word ≠ [] ∧ ∀ c ∈ word, separates c = false := by
  rcases of_mem_wordsBetween mem with ⟨wordNe, inWord⟩
  exact ⟨wordNe, fun c cMem => (inWord c cMem).2⟩

/-- The words of a slug are those of its heading. -/
theorem wordsOf_ofHeading (heading : Text) : wordsOf (ofHeading heading) = wordsOf heading := by
  have inLower : lowercase (ofHeading heading) = ofHeading heading :=
    lowercase_eq_self fun c mem => lowercaseChar_of_mem_ofHeading mem
  have isSep : separates '-' = true := by decide
  calc wordsOf (ofHeading heading)
      = wordsBetween separates ((ofHeading heading).filter keeps) := by rw [wordsOf, inLower]
    _ = wordsBetween separates (['-'].intercalate (wordsOf heading)) := by
        rw [filter_keeps_ofHeading, words_eq_intercalate]
    _ = wordsOf heading :=
        wordsBetween_intercalate isSep fun word mem => not_separates_of_mem_wordsOf mem

/-- A slug is its own slug. -/
theorem ofHeading_ofHeading (heading : Text) : ofHeading (ofHeading heading) = ofHeading heading :=
  ofHeading_congr (wordsOf_ofHeading heading)

end Again

section Joined

/-- The words of two slugs with a hyphen between them, or those of the one that has any. -/
def joined : Text → Text → Text
  | [], second => second
  | first, [] => first
  | first, second => first ++ '-' :: second

variable {blanks : Text}

theorem intercalate_eq_nil_iff {words : List Text} (areWords : ∀ word ∈ words, word ≠ []) :
    ['-'].intercalate words = [] ↔ words = [] := by
  cases words with
  | nil => simp
  | cons word rest =>
    simp [intercalate_cons_ne_nil (areWords word List.mem_cons_self)]

theorem intercalate_append {words more : List Text} (areWords : ∀ word ∈ words, word ≠ [])
    (moreAre : ∀ word ∈ more, word ≠ []) :
    ['-'].intercalate (words ++ more) =
      joined (['-'].intercalate words) (['-'].intercalate more) := by
  by_cases noWords : words = []
  · simp [noWords, joined]
  · by_cases noMore : more = []
    · simp only [noMore, List.append_nil, List.intercalate_nil]
      rw [joined]
      exact mt (intercalate_eq_nil_iff areWords).1 noWords
    · have wordsNe := mt (intercalate_eq_nil_iff areWords).1 noWords
      have moreNe := mt (intercalate_eq_nil_iff moreAre).1 noMore
      rw [intercalate_append_of_ne_nil noWords noMore, joined]
      · exact wordsNe
      · exact moreNe

theorem wordsOf_append_blanks (nonempty : blanks ≠ []) (areBlank : ∀ c ∈ blanks, isBlank c = true)
    (a b : Text) : wordsOf (a ++ blanks ++ b) = wordsOf a ++ wordsOf b := by
  rcases List.exists_cons_of_ne_nil nonempty with ⟨blank, more, rfl⟩
  have moreAreBlank : ∀ c ∈ more, isBlank c = true := by
    intro c mem
    exact areBlank c (List.mem_cons_of_mem blank mem)
  calc wordsOf (a ++ (blank :: more) ++ b)
      = wordsOf (a ++ blank :: (more ++ b)) := by rw [List.append_assoc, List.cons_append]
    _ = wordsOf a ++ wordsOf (more ++ b) :=
        wordsOf_append_blank (areBlank blank List.mem_cons_self) a (more ++ b)
    _ = wordsOf a ++ wordsOf b := by rw [wordsOf_blanks_append moreAreBlank]

/-- The slug of two headings with blanks between them is made of the slugs of both. -/
theorem ofHeading_append_blanks (nonempty : blanks ≠ [])
    (areBlank : ∀ c ∈ blanks, isBlank c = true) (a b : Text) :
    ofHeading (a ++ blanks ++ b) = '#' :: joined (ofHeading a).tail (ofHeading b).tail := by
  have areWords : ∀ heading, ∀ word ∈ wordsOf heading, word ≠ [] := by
    intro heading word mem
    exact (of_mem_wordsOf mem).1
  have parts := intercalate_append (areWords a) (areWords b)
  rw [← wordsOf_append_blanks nonempty areBlank, ← words_eq_intercalate, ← words_eq_intercalate,
    ← words_eq_intercalate] at parts
  exact congrArg ('#' :: ·) parts

-- Over the blanks, the hyphens at the cut come together and no sigma sees a letter.
theorem ofHeading_append_blanks_sample :
    " \t".toList ≠ [] ∧ (∀ c ∈ " \t".toList, isBlank c = true) ∧
      ofHeading ("ΟΔΟΣ -".toList ++ " \t".toList ++ "- Σ'".toList) = "#οδος-σ".toList := by
  have areBlank : ∀ c ∈ " \t".toList, isBlank c = true := List.all_eq_true.1 (by decide)
  refine ⟨by decide, areBlank, ?_⟩
  rw [ofHeading_append_blanks (by decide) areBlank]
  decide +kernel

end Joined

end Slug

end MarkdownLinks
