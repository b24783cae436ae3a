import MarkdownLinks.Proofs.Heading
import MarkdownLinks.Proofs.Text.LineEnding

/-!
# Headings and carriage returns

A carriage return is a blank, so that at the end of a heading it has no part in the slug.  But it
can also be the whole content: a line of marks and one blank, which is not a heading, becomes one
with an empty slug when its newline is written with a carriage return.  Documents are read without
carriage returns, so that only texts from elsewhere show the difference.
-/

namespace MarkdownLinks

namespace Heading

/-- Whether a line is one to six marks and one blank, without a content. -/
def IsBareMarker (line : Text) : Prop :=
  ∃ level blank, 1 ≤ level ∧ level ≤ 6 ∧ isBlank blank = true ∧
    line = List.replicate level '#' ++ [blank]

section Concat

variable {blank : Char} {line slug : Text}

/-- A heading with one more blank at its end. -/
def Source.concat (source : Source) (blank : Char) : Source :=
  { source with
    content := source.content ++ [blank]
    contentNe := List.concat_ne_nil blank source.content }

theorem gives_concat_of_gives (isBlank : isBlank blank = true) (gives : Gives line slug) :
    Gives (line ++ [blank]) slug := by
  rcases gives with ⟨source, rfl, rfl⟩
  have sameWords := Slug.wordsOf_concat_blank isBlank source.content
  refine ⟨source.concat blank, ?_, Slug.ofHeading_congr sameWords⟩
  simp [Source.written, Source.concat]

theorem ofHeading_blank (isBlank : isBlank blank = true) : Slug.ofHeading [blank] = ['#'] :=
  Slug.ofHeading_eq_mark (Slug.wordsOf_eq_nil (by simpa using isBlank))

theorem gives_concat_of_isBareMarker (isBlank : isBlank blank = true) (bare : IsBareMarker line) :
    Gives (line ++ [blank]) ['#'] := by
  rcases bare with ⟨level, first, levelPos, levelLe, firstBlank, rfl⟩
  refine ⟨⟨level, first, [blank], levelPos, levelLe, firstBlank, by simp⟩, ?_,
    ofHeading_blank isBlank⟩
  simp [Source.written]

/-- A blank at the end of a line makes a difference only to a line of marks and one blank. -/
theorem gives_concat_iff (isBlank : isBlank blank = true) :
    Gives (line ++ [blank]) slug ↔ Gives line slug ∨ slug = ['#'] ∧ IsBareMarker line := by
  constructor
  · rintro ⟨⟨level, first, content, levelPos, levelLe, firstBlank, contentNe⟩, whole, rfl⟩
    rcases List.eq_nil_or_concat content with isEmpty | ⟨before, last, ends⟩
    · exact absurd isEmpty contentNe
    · rw [List.concat_eq_append] at ends
      subst ends
      have parts : (List.replicate level '#' ++ first :: before) ++ [last] = line ++ [blank] := by
        simpa [Source.written] using whole
      rcases List.append_inj' parts rfl with ⟨rfl, same⟩
      cases same
      by_cases beforeNe : before = []
      · subst beforeNe
        exact Or.inr ⟨ofHeading_blank isBlank, level, first, levelPos, levelLe, firstBlank, rfl⟩
      · have sameWords := Slug.wordsOf_concat_blank isBlank before
        exact Or.inl ⟨⟨level, first, before, levelPos, levelLe, firstBlank, beforeNe⟩, rfl,
          (Slug.ofHeading_congr sameWords).symm⟩
  · rintro (gives | ⟨rfl, bare⟩)
    · exact gives_concat_of_gives isBlank gives
    · exact gives_concat_of_isBareMarker isBlank bare

end Concat

/-- The slugs of a text whose newlines are written with carriage returns are those of the text, and
the empty one if a newline ends a line of marks and one blank. -/
theorem mem_slugs_toCrLf (t slug : Text) :
    slug ∈ slugs (LineEnding.toCrLf t) ↔
      slug ∈ slugs t ∨ slug = ['#'] ∧ ∃ line ∈ (lines t).dropLast, IsBareMarker line := by
  rcases LineEnding.exists_lines_toCrLf t with ⟨ended, last, linesEq, crLfEq⟩
  have isBlank : isBlank '\r' = true := by decide
  rw [mem_slugs_iff_exists_gives, mem_slugs_iff_exists_gives, linesEq, crLfEq,
    List.dropLast_concat]
  simp only [List.mem_append, List.mem_map, List.mem_singleton, or_and_right, exists_or,
    exists_eq_left, exists_exists_and_eq_and, gives_concat_iff isBlank, and_or_left]
  constructor
  · rintro ((⟨line, mem, gives⟩ | ⟨line, mem, same, bare⟩) | gives)
    · exact Or.inl (Or.inl ⟨line, mem, gives⟩)
    · exact Or.inr ⟨same, line, mem, bare⟩
    · exact Or.inl (Or.inr gives)
  · rintro ((⟨line, mem, gives⟩ | gives) | ⟨same, line, mem, bare⟩)
    · exact Or.inl (Or.inl ⟨line, mem, gives⟩)
    · exact Or.inr gives
    · exact Or.inl (Or.inr ⟨line, mem, same, bare⟩)

/-- Carriage returns before the newlines leave the slugs alone exactly if no newline ends a line of
marks and one blank, or the text has a heading with an empty slug anyway. -/
theorem slugs_toCrLf_eq_iff (t : Text) :
    slugs (LineEnding.toCrLf t) = slugs t ↔
      ((∃ line ∈ (lines t).dropLast, IsBareMarker line) → ['#'] ∈ slugs t) := by
  constructor
  · intro same bare
    rw [← same]
    exact (mem_slugs_toCrLf t ['#']).2 (Or.inr ⟨rfl, bare⟩)
  · intro kept
    ext slug
    rw [mem_slugs_toCrLf]
    constructor
    · rintro (mem | ⟨rfl, bare⟩)
      · exact mem
      · exact kept bare
    · exact Or.inl

/-- What carriage returns before the newlines do to the slugs: when nothing, and what they add. -/
theorem slugs_toCrLf (t : Text) :
    (slugs (LineEnding.toCrLf t) = slugs t ↔
        ((∃ line ∈ (lines t).dropLast, IsBareMarker line) → ['#'] ∈ slugs t)) ∧
      ∀ slug, slug ∈ slugs (LineEnding.toCrLf t) ↔
        slug ∈ slugs t ∨ slug = ['#'] ∧ ∃ line ∈ (lines t).dropLast, IsBareMarker line :=
  ⟨slugs_toCrLf_eq_iff t, mem_slugs_toCrLf t⟩

/-- A mark, a blank and a newline. -/
def bareText : Text :=
  "# \n".toList

theorem not_forall_slugs_toCrLf : ¬ ∀ t, slugs (LineEnding.toCrLf t) = slugs t := by
  intro same
  have bare : IsBareMarker "# ".toList := ⟨1, ' ', by decide, by decide, by decide, rfl⟩
  have added : ['#'] ∈ slugs (LineEnding.toCrLf bareText) :=
    (mem_slugs_toCrLf bareText ['#']).2 (Or.inr ⟨rfl, "# ".toList, by decide, bare⟩)
  rw [same bareText] at added
  exact absurd added (by decide)

end Heading

end MarkdownLinks
