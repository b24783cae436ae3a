import MarkdownLinks.Proofs.Slug
import MarkdownLinks.Proofs.Text.Lowercase
import MarkdownLinks.Proofs.Text.Words

/-!
# The words of slugs

The four passes that make a slug come to one: a slug is the words of its heading with single hyphens
between them.  The words are what stands between blanks and hyphens in the heading in lower case,
without its punctuation.
-/

namespace MarkdownLinks

namespace Slug

/-- Whether a character ends a word of a heading. -/
def separates (c : Char) : Bool :=
  isBlank c || c == '-'

/-- The words of a heading, in lower case and without punctuation. -/
def wordsOf (heading : Text) : List Text :=
  wordsBetween separates ((lowercase heading).filter keeps)

variable {heading : Text} {blank : Char}

theorem words_eq_intercalate (heading : Text) :
    words heading = ['-'].intercalate (wordsOf heading) := by
  have fused : ∀ kept, replaceRuns (· == '-') '-' (replaceRuns isBlank '-' kept) =
      replaceRuns separates '-' kept := replaceRuns_replaceRuns rfl
  have notTrimmed : ∀ c, separates c = false → (c == '-') = false := by
    intro c inWord
    exact (Bool.or_eq_false_iff.1 inWord).2
  calc words heading
      = trimBoth (· == '-') (replaceRuns separates '-' ((lowercase heading).filter keeps)) :=
        congrArg (trimBoth (· == '-')) (fused _)
    _ = ['-'].intercalate (wordsOf heading) := trimBoth_replaceRuns rfl notTrimmed _

theorem of_mem_wordsOf {word : Text} (mem : word ∈ wordsOf heading) :
    word ≠ [] ∧ ∀ c ∈ word, isWordChar c = true ∧ c ≠ '-' := by
  rcases of_mem_wordsBetween mem with ⟨wordNe, inWord⟩
  refine ⟨wordNe, ?_⟩
  intro c cMem
  rcases inWord c cMem with ⟨kept, notSep⟩
  rcases Bool.or_eq_false_iff.1 notSep with ⟨notBlank, notHyphen⟩
  have keptInSlug : keeps c = true := (List.mem_filter.1 kept).2
  constructor
  · simpa [keeps, notBlank, notHyphen] using keptInSlug
  · simpa using notHyphen

theorem keeps_of_isBlank (isBlank : isBlank blank = true) : keeps blank = true := by
  simp [keeps, isBlank]

/-- The words of a heading are found blank by blank. -/
theorem wordsOf_append_blank (isBlank : isBlank blank = true) (a b : Text) :
    wordsOf (a ++ blank :: b) = wordsOf a ++ wordsOf b := by
  have isSep : separates blank = true := by simp [separates, isBlank]
  simp only [wordsOf, lowercase_append_blank isBlank, List.filter_append,
    List.filter_cons_of_pos (keeps_of_isBlank isBlank), wordsBetween_append_cons isSep]

theorem wordsOf_nil : wordsOf [] = [] :=
  wordsBetween_nil

theorem wordsOf_blanks_append {blanks : Text} (areBlank : ∀ c ∈ blanks, isBlank c = true)
    (heading : Text) : wordsOf (blanks ++ heading) = wordsOf heading := by
  induction blanks with
  | nil => rfl
  | cons blank rest ih =>
    have first := wordsOf_append_blank (areBlank blank List.mem_cons_self) [] (rest ++ heading)
    rw [wordsOf_nil, List.nil_append, List.nil_append] at first
    rw [List.cons_append, first, ih fun c mem => areBlank c (List.mem_cons_of_mem blank mem)]

theorem wordsOf_concat_blank (isBlank : isBlank blank = true) (heading : Text) :
    wordsOf (heading ++ [blank]) = wordsOf heading := by
  rw [wordsOf_append_blank isBlank, wordsOf_nil, List.append_nil]

theorem wordsOf_eq_nil (areBlank : ∀ c ∈ heading, isBlank c = true) : wordsOf heading = [] := by
  have sameAsEmpty := wordsOf_blanks_append areBlank []
  rwa [List.append_nil] at sameAsEmpty

/-- A slug depends on the words alone. -/
theorem ofHeading_congr {other : Text} (same : wordsOf heading = wordsOf other) :
    ofHeading heading = ofHeading other := by
  rw [ofHeading, ofHeading, words_eq_intercalate, words_eq_intercalate, same]

theorem ofHeading_eq_mark (noWords : wordsOf heading = []) : ofHeading heading = ['#'] := by
  rw [ofHeading, words_eq_intercalate, noWords]
  rfl

/-- Whether a text is made of words with single hyphens between them. -/
structure IsHyphenated (t : Text) : Prop where
  plain : ∀ c ∈ t, isWordChar c = true ∨ c = '-'
  notBlank : ∀ c ∈ t, isBlank c = false
  single : ¬ ['-', '-'] <:+: t
  first : t.head? ≠ some '-'
  last : t.getLast? ≠ some '-'

theorem isHyphenated_words (heading : Text) : IsHyphenated (words heading) := by
  have areWords : ∀ word ∈ wordsOf heading, word ≠ [] ∧ '-' ∉ word := by
    intro word mem
    rcases of_mem_wordsOf mem with ⟨wordNe, inWord⟩
    exact ⟨wordNe, fun hyphen => (inWord '-' hyphen).2 rfl⟩
  refine ⟨?plain, ?notBlank, ?single, ?first, ?last⟩
  case plain =>
    intro c mem
    by_cases isHyphen : c = '-'
    · exact Or.inr isHyphen
    · exact Or.inl (isWordChar_of_mem_words mem isHyphen)
  case notBlank =>
    intro c mem
    exact not_isBlank_of_mem_words mem
  case single =>
    rintro ⟨before, after, whole⟩
    have single := isChain_intercalate areWords
    rw [← words_eq_intercalate, ← whole, List.append_assoc] at single
    have pair : '-' ≠ '-' ∨ '-' ≠ '-' := (List.isChain_append_cons_cons.1 single).2.1
    simp at pair
  case first =>
    rw [words_eq_intercalate]
    exact head?_intercalate_ne areWords
  case last =>
    rw [words_eq_intercalate]
    exact getLast?_intercalate_ne areWords

/-- A slug is its mark and the words of the heading, with a single hyphen between each two. -/
theorem ofHeading_eq_words (heading : Text) :
    ofHeading heading = '#' :: ['-'].intercalate (wordsOf heading) ∧
      IsHyphenated (ofHeading heading).tail :=
  ⟨congrArg ('#' :: ·) (words_eq_intercalate heading), isHyphenated_words heading⟩

-- The hyphens around the mark that is left out come together, and the sigma ends its word.
example : ofHeading "-A -!- ΒΣ, c-".toList = "#a-βς-c".toList := by
  decide +kernel

end Slug

end MarkdownLinks
