import Mathlib.Data.List.TakeWhile
import MarkdownLinks.Heading
import MarkdownLinks.Proofs.Slug.Words

/-!
# What is a heading

A line is a heading if it is one to six `#`, one blank and a content that is not empty.  How more
blanks are divided between the blank and the content does not matter, since the slug does not depend
on the blanks at the beginning of the content.
-/

namespace MarkdownLinks

namespace Heading

/-- A heading as it can be written on a line. -/
structure Source where
  level : Nat
  blank : Char
  content : Text
  levelPos : 1 ≤ level
  levelLe : level ≤ 6
  isBlank : isBlank blank = true
  contentNe : content ≠ []

namespace Source

def written (source : Source) : Text :=
  List.replicate source.level '#' ++ source.blank :: source.content

def slug (source : Source) : Text :=
  Slug.ofHeading source.content

theorem takeWhile_written (source : Source) :
    source.written.takeWhile (· == '#') = List.replicate source.level '#' := by
  have notMark : source.blank ≠ '#' := ne_of_isBlank source.isBlank (by decide)
  rw [written, List.takeWhile_append_of_pos (by simp), List.takeWhile_cons_of_neg (by simpa),
    List.append_nil]

theorem dropWhile_written (source : Source) :
    source.written.dropWhile (· == '#') = source.blank :: source.content := by
  have notMark : source.blank ≠ '#' := ne_of_isBlank source.isBlank (by decide)
  rw [written, List.dropWhile_append_of_pos (by simp), List.dropWhile_cons_of_neg (by simpa)]

end Source

/-- A line that is written as a heading is read as one, with the same slug. -/
theorem exists_content?_written (source : Source) :
    ∃ content, content? source.written = some content ∧
      Slug.ofHeading content = source.slug := by
  have notLevel : ¬ (source.level = 0 ∨ maxLevel < source.level) := by
    have levelPos := source.levelPos
    have levelLe := source.levelLe
    simp only [maxLevel]
    omega
  have blanks : (source.blank :: source.content).takeWhile isBlank =
      source.blank :: source.content.takeWhile isBlank :=
    List.takeWhile_cons_of_pos source.isBlank
  simp only [content?, source.takeWhile_written, source.dropWhile_written, List.length_replicate,
    if_neg notLevel, blanks, List.dropWhile_cons_of_pos source.isBlank]
  cases rest : source.content.dropWhile isBlank with
  | nil =>
    have areBlank : ∀ c ∈ source.content, isBlank c = true := List.dropWhile_eq_nil_iff.1 rest
    have enough : 2 ≤ (source.blank :: source.content).length := by
      have nonempty := List.length_pos_iff.2 source.contentNe
      rw [List.length_cons]
      omega
    rw [List.takeWhile_eq_self_iff.2 areBlank]
    refine ⟨_, if_pos enough, Slug.ofHeading_congr ?_⟩
    rw [Slug.wordsOf_eq_nil areBlank]
    apply Slug.wordsOf_eq_nil
    intro c mem
    rcases List.mem_cons.1 (List.mem_of_mem_drop mem) with rfl | mem
    · exact source.isBlank
    · exact areBlank c mem
  | cons c more =>
    have parts := List.takeWhile_append_dropWhile (p := isBlank) (l := source.content)
    rw [rest] at parts
    refine ⟨c :: more, rfl, Slug.ofHeading_congr ?_⟩
    rw [← parts]
    exact (Slug.wordsOf_blanks_append (fun _ => List.mem_takeWhile_imp) _).symm

/-- What follows the marks of a heading is a blank and a content that has the words of the content
that is read. -/
theorem exists_of_content? {line content : Text} (found : content? line = some content) :
    ∃ blank rest, line.dropWhile (· == '#') = blank :: rest ∧ isBlank blank = true ∧ rest ≠ [] ∧
      Slug.wordsOf rest = Slug.wordsOf content := by
  -- Blanks alone leave their last one over as the content; either way the first blank is cut off.
  have parts := List.takeWhile_append_dropWhile (p := isBlank) (l := line.dropWhile (· == '#'))
  have areBlank : ∀ c ∈ (line.dropWhile (· == '#')).takeWhile isBlank, isBlank c = true :=
    fun _ => List.mem_takeWhile_imp
  simp only [content?] at found
  generalize (line.dropWhile (· == '#')).takeWhile isBlank = blanks at *
  split at found
  · cases found
  · split at found
    · next blankAfter =>
      split at found
      · next enough =>
        cases found
        rw [blankAfter, List.append_nil] at parts
        cases blanks with
        | nil => simp at enough
        | cons blank rest =>
          refine ⟨blank, rest, parts.symm, areBlank blank List.mem_cons_self, ?_, ?_⟩
          · rintro rfl
            simp at enough
          · rw [Slug.wordsOf_eq_nil fun b mem => areBlank b (List.mem_of_mem_drop mem)]
            exact Slug.wordsOf_eq_nil fun b mem => areBlank b (List.mem_cons_of_mem blank mem)
      · cases found
    · next c more after =>
      rw [after] at parts
      split at found
      · cases found
      · next nonempty =>
        cases found
        cases blanks with
        | nil => exact absurd rfl nonempty
        | cons blank rest =>
          refine ⟨blank, rest ++ c :: more, parts.symm, areBlank blank List.mem_cons_self, by simp,
            ?_⟩
          exact Slug.wordsOf_blanks_append
            (fun b mem => areBlank b (List.mem_cons_of_mem blank mem)) _

/-- A line that is read as a heading is written as one, with the same slug. -/
theorem exists_source_of_content? {line content : Text} (found : content? line = some content) :
    ∃ source : Source, source.written = line ∧ source.slug = Slug.ofHeading content := by
  rcases exists_of_content? found with ⟨blank, rest, after, isBlank, restNe, same⟩
  have marks : line.takeWhile (· == '#') =
      List.replicate (line.takeWhile (· == '#')).length '#' := by
    apply List.eq_replicate_of_mem
    intro c mem
    exact eq_of_beq (List.mem_takeWhile_imp (p := (· == '#')) mem)
  have level : 1 ≤ (line.takeWhile (· == '#')).length ∧
      (line.takeWhile (· == '#')).length ≤ 6 := by
    simp only [content?] at found
    split at found
    · cases found
    · next isLevel =>
      simp only [maxLevel] at isLevel
      omega
  refine ⟨⟨_, blank, rest, level.1, level.2, isBlank, restNe⟩, ?_, Slug.ofHeading_congr same⟩
  rw [Source.written, ← marks, ← after]
  exact List.takeWhile_append_dropWhile

/-- Whether a line is written as a heading with a slug. -/
def Gives (line slug : Text) : Prop :=
  ∃ source : Source, source.written = line ∧ source.slug = slug

theorem gives_iff {line slug : Text} :
    Gives line slug ↔ ∃ content, content? line = some content ∧ Slug.ofHeading content = slug := by
  constructor
  · rintro ⟨source, rfl, rfl⟩
    exact exists_content?_written source
  · rintro ⟨content, found, rfl⟩
    exact exists_source_of_content? found

theorem mem_slugs_iff_exists_gives {text slug : Text} :
    slug ∈ slugs text ↔ ∃ line ∈ lines text, Gives line slug := by
  simp only [slugs, contents, TextSet.mem_ofList, List.mem_map, List.mem_filterMap, gives_iff]
  constructor
  · rintro ⟨content, ⟨line, lineMem, found⟩, same⟩
    exact ⟨line, lineMem, content, found, same⟩
  · rintro ⟨line, lineMem, content, found, same⟩
    exact ⟨content, ⟨line, lineMem, found⟩, same⟩

/-- The slugs of a text are those of the lines with one to six marks, one blank and a content. -/
theorem mem_slugs_iff (text slug : Text) :
    slug ∈ slugs text ↔
      ∃ level blank content, 1 ≤ level ∧ level ≤ 6 ∧ isBlank blank = true ∧ content ≠ [] ∧
        List.replicate level '#' ++ blank :: content ∈ lines text ∧
        slug = Slug.ofHeading content := by
  rw [mem_slugs_iff_exists_gives]
  constructor
  · rintro ⟨line, lineMem, ⟨level, blank, content, levelPos, levelLe, isBlank, contentNe⟩, rfl, rfl⟩
    exact ⟨level, blank, content, levelPos, levelLe, isBlank, contentNe, lineMem, rfl⟩
  · rintro ⟨level, blank, content, levelPos, levelLe, isBlank, contentNe, lineMem, rfl⟩
    exact ⟨_, lineMem, ⟨level, blank, content, levelPos, levelLe, isBlank, contentNe⟩, rfl, rfl⟩

end Heading

end MarkdownLinks
