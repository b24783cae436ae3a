import MarkdownLinks.Heading
import MarkdownLinks.Proofs.Text.Blank
import MarkdownLinks.Proofs.Text.Pieces

/-!
# The characters of slugs

After its `#`, a slug holds only word characters and hyphens.  None of them is blank, a quote, a
bracket or a colon, so nothing in a slug ends the target of a link.
-/

namespace MarkdownLinks

namespace Slug

variable {heading : Text} {c : Char}

/-- A hyphen in a slug may stand for a blank; everything else in it is kept from the heading. -/
theorem eq_hyphen_or_mem_of_mem_words (mem : c ∈ words heading) :
    c = '-' ∨ c ∈ lowercase heading ∧ isWordChar c = true := by
  rcases eq_mark_or_mem_of_mem_replaceRuns (mem_of_mem_trimBoth mem) with isHyphen | ⟨mem, notHyphen⟩
  · exact Or.inl isHyphen
  · rcases eq_mark_or_mem_of_mem_replaceRuns mem with isHyphen | ⟨mem, notBlank⟩
    · exact Or.inl isHyphen
    · rcases List.mem_filter.1 mem with ⟨fromHeading, kept⟩
      exact Or.inr ⟨fromHeading, by simpa [keeps, notBlank, notHyphen] using kept⟩

theorem isWordChar_of_mem_words (mem : c ∈ words heading) (notHyphen : c ≠ '-') :
    isWordChar c = true :=
  ((eq_hyphen_or_mem_of_mem_words mem).resolve_left notHyphen).2

theorem not_mem_words (notWord : isWordChar c = false) (notHyphen : c ≠ '-') :
    c ∉ words heading := by
  intro mem
  simp only [isWordChar_of_mem_words mem notHyphen] at notWord
  cases notWord

theorem not_isBlank_of_mem_words (mem : c ∈ words heading) : isBlank c = false := by
  by_cases isHyphen : c = '-'
  · subst isHyphen
    decide
  · exact not_isBlank_of_isWordChar (isWordChar_of_mem_words mem isHyphen)

end Slug

theorem Heading.exists_of_mem_slugs {text anchor : Text} (mem : anchor ∈ slugs text) :
    ∃ heading, anchor = Slug.ofHeading heading := by
  simp only [slugs, TextSet.mem_ofList] at mem
  rcases List.mem_map.1 mem with ⟨heading, -, rfl⟩
  exact ⟨heading, rfl⟩

end MarkdownLinks
