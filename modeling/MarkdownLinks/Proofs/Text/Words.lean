import Mathlib.Data.List.Chain
import MarkdownLinks.Proofs.Text.Pieces

/-!
# Words

The words of a list are its non-empty pieces between separators.  Putting one mark for each run of
separators and trimming the marks at both ends leaves the words with one mark between each two.
-/

namespace MarkdownLinks

variable {α : Type} {p q : α → Bool} {l : List α}

/-- The non-empty pieces between the elements that satisfy `p`. -/
def wordsBetween (p : α → Bool) (l : List α) : List (List α) :=
  (l.splitOnP p).filter fun piece => !piece.isEmpty

theorem wordsBetween_nil : wordsBetween p [] = [] := by
  simp [wordsBetween]

/-- A separator ends a word.  What is known about words follows from this equation. -/
theorem wordsBetween_append_cons {sep : α} (isSep : p sep = true) (a b : List α) :
    wordsBetween p (a ++ sep :: b) = wordsBetween p a ++ wordsBetween p b := by
  simp only [wordsBetween, List.splitOnP_append_cons a b isSep, List.filter_append]

theorem wordsBetween_cons {sep : α} (isSep : p sep = true) (l : List α) :
    wordsBetween p (sep :: l) = wordsBetween p l := by
  have ends := wordsBetween_append_cons isSep [] l
  rw [wordsBetween_nil] at ends
  exact ends

theorem wordsBetween_of_forall_not {word : List α} (inWord : ∀ a ∈ word, p a = false)
    (wordNe : word ≠ []) : wordsBetween p word = [word] := by
  simp [wordsBetween, List.splitOnP_eq_singleton inWord, wordNe]

theorem of_mem_splitOnP {piece : List α} (pieceMem : piece ∈ l.splitOnP p) :
    ∀ a ∈ piece, a ∈ l ∧ p a = false := by
  induction l generalizing piece with
  | nil =>
    rw [List.splitOnP_nil, List.mem_singleton] at pieceMem
    simp [pieceMem]
  | cons b rest ih =>
    have later : ∀ other ∈ rest.splitOnP p, ∀ a ∈ other, a ∈ b :: rest ∧ p a = false := by
      intro other otherMem a mem
      exact ⟨List.mem_cons_of_mem b (ih otherMem a mem).1, (ih otherMem a mem).2⟩
    rw [List.splitOnP_cons_eq_if_modifyHead] at pieceMem
    split at pieceMem
    · rcases List.mem_cons.1 pieceMem with rfl | pieceMem
      · simp
      · exact later piece pieceMem
    · next notSep =>
      rcases List.exists_cons_of_ne_nil (List.splitOnP_ne_nil p rest) with ⟨first, others, cut⟩
      rw [cut] at pieceMem later
      rcases List.mem_cons.1 pieceMem with rfl | pieceMem
      · intro a mem
        rcases List.mem_cons.1 mem with rfl | mem
        · exact ⟨List.mem_cons_self, Bool.eq_false_iff.2 notSep⟩
        · exact later first List.mem_cons_self a mem
      · exact later piece (List.mem_cons_of_mem first pieceMem)

/-- A word is not empty and holds no separator. -/
theorem of_mem_wordsBetween {word : List α} (wordMem : word ∈ wordsBetween p l) :
    word ≠ [] ∧ ∀ a ∈ word, a ∈ l ∧ p a = false := by
  rcases List.mem_filter.1 wordMem with ⟨pieceMem, nonempty⟩
  exact ⟨by simpa using nonempty, of_mem_splitOnP pieceMem⟩

section Runs

variable {mark : α}

theorem head?_any_or (starts : l.head?.any p = true) :
    (l.head?.any fun a => p a || q a) = true := by
  cases l with
  | nil => cases starts
  | cons a rest =>
    have isStart : p a = true := starts
    simp [isStart]

theorem head?_replaceRuns (isSep : q mark = true) (l : List α) :
    (replaceRuns p mark l).head?.any q = l.head?.any fun a => p a || q a := by
  induction l with
  | nil => rfl
  | cons a rest ih =>
    by_cases inRun : p a = true
    · by_cases continues : rest.head?.any p = true
      · simp [replaceRuns, inRun, continues, ih, head?_any_or continues]
      · simp [replaceRuns, inRun, continues, isSep]
    · simp [replaceRuns, inRun]

/-- Runs for which an element of other runs is put become part of these. -/
theorem replaceRuns_replaceRuns (isSep : q mark = true) (l : List α) :
    replaceRuns q mark (replaceRuns p mark l) = replaceRuns (fun a => p a || q a) mark l := by
  induction l with
  | nil => rfl
  | cons a rest ih =>
    have head := head?_replaceRuns (p := p) isSep rest
    by_cases inRun : p a = true
    · by_cases continues : rest.head?.any p = true
      · simp [replaceRuns, inRun, continues, ih, head?_any_or continues]
      · simp [replaceRuns, inRun, continues, isSep, head, ih]
    · simp [replaceRuns, inRun, head, ih]

theorem not_of_head?_replaceRuns (starts : ¬ l.head?.any p = true) :
    ∀ a ∈ (replaceRuns p mark l).head?, p a = false := by
  cases l with
  | nil => simp [replaceRuns]
  | cons a rest =>
    have notSep : p a = false := Bool.eq_false_iff.2 starts
    simp [replaceRuns, notSep]

/-- In a run of separators, one of them is enough to end a word. -/
theorem wordsBetween_append_run {sep : α} {rest : List α} (isSep : p sep = true)
    (run : rest.head?.any p = true) (word : List α) :
    wordsBetween p (word ++ sep :: rest) = wordsBetween p (word ++ rest) := by
  cases rest with
  | nil => cases run
  | cons next more =>
    have nextSep : p next = true := run
    rw [wordsBetween_append_cons isSep, wordsBetween_append_cons nextSep,
      wordsBetween_cons nextSep]

end Runs

section Joined

variable {mark : α} {words : List (List α)}

theorem intercalate_cons_ne_nil {word : List α} (wordNe : word ≠ []) :
    [mark].intercalate (word :: words) ≠ [] := by
  cases words <;> simp [wordNe]

/-- A mark after a word stays if another word follows, and is left out if none does. -/
theorem dropTrailing_append_mark (isMark : q mark = true) {word rest : List α}
    (last : ∀ a ∈ word.getLast?, q a = false)
    (kept : dropTrailing q rest = [mark].intercalate words)
    (areWords : ∀ other ∈ words, other ≠ []) :
    dropTrailing q (word ++ mark :: rest) = [mark].intercalate (word :: words) := by
  cases words with
  | nil =>
    have trailing : dropTrailing q (mark :: rest) = [] := by
      simp [dropTrailing, kept, isMark]
    rw [dropTrailing_append_of_eq_nil trailing, dropTrailing_eq_self last,
      List.intercalate_singleton]
  | cons next others =>
    have keptNe : [mark].intercalate (next :: others) ≠ [] :=
      intercalate_cons_ne_nil (areWords next List.mem_cons_self)
    have marked : dropTrailing q (mark :: rest) = mark :: [mark].intercalate (next :: others) := by
      rcases List.exists_cons_of_ne_nil keptNe with ⟨first, more, whole⟩
      rw [dropTrailing, kept, whole]
    have markedNe : dropTrailing q (mark :: rest) ≠ [] := by simp [marked]
    rw [dropTrailing_append_of_ne_nil markedNe, marked, List.intercalate_cons_cons,
      List.append_assoc, List.singleton_append]

theorem trimBoth_append_mark (isMark : q mark = true) {word rest : List α} (wordNe : word ≠ [])
    (inWord : ∀ a ∈ word, q a = false) (next : ∀ a ∈ rest.head?, q a = false)
    (trimmed : trimBoth q rest = [mark].intercalate words)
    (areWords : ∀ other ∈ words, other ≠ []) :
    trimBoth q (word ++ mark :: rest) = [mark].intercalate (word :: words) := by
  have first : ∀ a ∈ (word ++ mark :: rest).head?, q a = false := by
    rcases List.exists_cons_of_ne_nil wordNe with ⟨a, more, rfl⟩
    intro b isHead
    cases isHead
    exact inWord a List.mem_cons_self
  have last : ∀ a ∈ word.getLast?, q a = false := by
    intro a isLast
    exact inWord a (List.mem_of_mem_getLast? isLast)
  rw [trimBoth, dropWhile_eq_self next] at trimmed
  rw [trimBoth, dropWhile_eq_self first]
  exact dropTrailing_append_mark isMark last trimmed areWords

theorem trimBoth_append_replaceRuns (isMark : q mark = true)
    (notTrimmed : ∀ a, p a = false → q a = false) (l word : List α)
    (inWord : ∀ a ∈ word, p a = false) :
    trimBoth q (word ++ replaceRuns p mark l) =
      [mark].intercalate (wordsBetween p (word ++ l)) := by
  -- The word that has begun is carried along: it may not yet be known where it ends.
  induction l generalizing word with
  | nil =>
    have whole : trimBoth q word = word :=
      trimBoth_of_forall_not fun a mem => notTrimmed a (inWord a mem)
    simp only [replaceRuns, List.append_nil, whole]
    by_cases wordNe : word = []
    · simp [wordNe, wordsBetween_nil]
    · rw [wordsBetween_of_forall_not inWord wordNe, List.intercalate_singleton]
  | cons a rest ih =>
    by_cases inRun : p a = true
    · by_cases continues : rest.head?.any p = true
      · rw [replaceRuns, if_pos inRun, if_pos continues, ih word inWord,
          wordsBetween_append_run inRun continues]
      · have trimmed := ih [] (by simp)
        rw [List.nil_append, List.nil_append] at trimmed
        rw [replaceRuns, if_pos inRun, if_neg continues, wordsBetween_append_cons inRun]
        by_cases wordNe : word = []
        · rw [wordNe, wordsBetween_nil, List.nil_append, List.nil_append, ← trimmed, trimBoth,
            List.dropWhile_cons_of_pos isMark, trimBoth]
        · rw [wordsBetween_of_forall_not inWord wordNe, List.singleton_append]
          apply trimBoth_append_mark isMark wordNe _ _ trimmed
          · intro other otherMem
            exact (of_mem_wordsBetween otherMem).1
          · intro b mem
            exact notTrimmed b (inWord b mem)
          · intro b isHead
            exact notTrimmed b (not_of_head?_replaceRuns continues b isHead)
    · have notSep : p a = false := Bool.eq_false_iff.2 inRun
      have longer : ∀ b ∈ word ++ [a], p b = false := by
        simpa [or_imp, forall_and, notSep] using inWord
      rw [replaceRuns, if_neg inRun, ← List.singleton_append, ← List.append_assoc,
        ih (word ++ [a]) longer, List.append_assoc, List.singleton_append]

/-- Putting a mark for each run and trimming the marks leaves the words, joined. -/
theorem trimBoth_replaceRuns (isMark : q mark = true) (notTrimmed : ∀ a, p a = false → q a = false)
    (l : List α) :
    trimBoth q (replaceRuns p mark l) = [mark].intercalate (wordsBetween p l) :=
  trimBoth_append_replaceRuns isMark notTrimmed l [] (by simp)

/-- Words that are joined with a separator between them are found again. -/
theorem wordsBetween_intercalate (isSep : p mark = true)
    (areWords : ∀ word ∈ words, word ≠ [] ∧ ∀ a ∈ word, p a = false) :
    wordsBetween p ([mark].intercalate words) = words := by
  induction words with
  | nil => exact wordsBetween_nil
  | cons word rest ih =>
    rcases areWords word List.mem_cons_self with ⟨wordNe, inWord⟩
    have first : wordsBetween p word = [word] := wordsBetween_of_forall_not inWord wordNe
    have later := ih fun other mem => areWords other (List.mem_cons_of_mem word mem)
    cases rest with
    | nil => rw [List.intercalate_singleton, first]
    | cons next others =>
      rw [List.intercalate_cons_cons, List.append_assoc, List.singleton_append,
        wordsBetween_append_cons isSep, first, later, List.singleton_append]

theorem head?_intercalate_ne (areWords : ∀ word ∈ words, word ≠ [] ∧ mark ∉ word) :
    ([mark].intercalate words).head? ≠ some mark := by
  cases words with
  | nil => simp
  | cons word rest =>
    rcases areWords word List.mem_cons_self with ⟨wordNe, absent⟩
    rcases List.exists_cons_of_ne_nil wordNe with ⟨a, more, rfl⟩
    have other : a ≠ mark := by
      rintro rfl
      exact absent List.mem_cons_self
    cases rest <;> simp [other]

theorem getLast?_intercalate_ne (areWords : ∀ word ∈ words, word ≠ [] ∧ mark ∉ word) :
    ([mark].intercalate words).getLast? ≠ some mark := by
  induction words with
  | nil => simp
  | cons word rest ih =>
    rcases areWords word List.mem_cons_self with ⟨-, absent⟩
    have later := ih fun other mem => areWords other (List.mem_cons_of_mem word mem)
    cases rest with
    | nil =>
      rw [List.intercalate_singleton]
      intro isLast
      exact absent (List.mem_of_getLast? isLast)
    | cons next others =>
      have nextNe : next ≠ [] := (areWords next (by simp)).1
      rw [List.intercalate_cons_cons,
        List.getLast?_append_of_ne_nil _ (intercalate_cons_ne_nil nextNe)]
      exact later

/-- Between words there is only one mark. -/
theorem isChain_intercalate (areWords : ∀ word ∈ words, word ≠ [] ∧ mark ∉ word) :
    ([mark].intercalate words).IsChain fun a b => a ≠ mark ∨ b ≠ mark := by
  induction words with
  | nil => exact .nil
  | cons word rest ih =>
    rcases areWords word List.mem_cons_self with ⟨-, absent⟩
    have inWord : word.IsChain fun a b => a ≠ mark ∨ b ≠ mark := by
      apply List.Pairwise.isChain
      apply List.pairwise_of_forall_mem_list
      rintro a mem b -
      left
      rintro rfl
      exact absent mem
    cases rest with
    | nil =>
      rw [List.intercalate_singleton]
      exact inWord
    | cons next others =>
      have areLater : ∀ other ∈ next :: others, other ≠ [] ∧ mark ∉ other := by
        intro other mem
        exact areWords other (List.mem_cons_of_mem word mem)
      rw [List.intercalate_cons_cons, List.append_assoc, List.singleton_append]
      apply List.isChain_append.2
      refine ⟨inWord, List.isChain_cons.2 ⟨?_, ih areLater⟩, ?_⟩
      · intro b isHead
        right
        rintro rfl
        exact head?_intercalate_ne areLater isHead
      · rintro a isLast b -
        left
        rintro rfl
        exact absent (List.mem_of_mem_getLast? isLast)

end Joined

end MarkdownLinks
