import MarkdownLinks.Link.Title
import MarkdownLinks.Proofs.Text.Pieces

/-!
# Targets with and without titles

A target without quotes and white space at its ends is left alone.  From any target that is left
alone, a title that is written after it is taken away again.
-/

namespace MarkdownLinks

namespace Title

theorem strip_eq_self {quote : Char} {target : Text} (last : target.getLast? ≠ some quote) :
    strip quote target = target := by
  unfold strip
  split
  · rfl
  · next lastChar beforeLast reversed =>
    have isLast : target.getLast? = some lastChar := by
      simp only [List.getLast?_eq_head?_reverse, reversed, List.head?_cons]
    have notQuote : lastChar ≠ quote := by
      rintro rfl
      exact last isLast
    simp only [if_neg notQuote]

theorem stripAll_eq_self {target : Text} (noTitle : ∀ c ∈ target.getLast?, c ≠ '"' ∧ c ≠ '\'')
    (first : ∀ c ∈ target.head?, isBlank c = false)
    (last : ∀ c ∈ target.getLast?, isBlank c = false) : stripAll target = target := by
  have noDouble : target.getLast? ≠ some '"' := by
    intro isLast
    exact (noTitle _ isLast).1 rfl
  have noSingle : target.getLast? ≠ some '\'' := by
    intro isLast
    exact (noTitle _ isLast).2 rfl
  simp only [stripAll, strip_eq_self noDouble, strip_eq_self noSingle, trimBlank,
    trimBoth_eq_self first last]

/-- What is left without a title is a beginning of the target. -/
theorem strip_isPrefix (quote : Char) (target : Text) : strip quote target <+: target := by
  unfold strip
  split
  · exact List.prefix_rfl
  · next last beforeLast reversed =>
    split
    · split
      · next opening before found =>
        split
        · have beforeQuote : before.dropWhile isBlank <:+ opening :: before :=
            (List.dropWhile_suffix isBlank).trans (List.suffix_cons opening before)
          rw [← found] at beforeQuote
          have beforeEnd : before.dropWhile isBlank <:+ last :: beforeLast :=
            (beforeQuote.trans (List.dropWhile_suffix _)).trans (List.suffix_cons last beforeLast)
          rw [← reversed] at beforeEnd
          rw [← List.reverse_suffix, List.reverse_reverse]
          exact beforeEnd
        · exact List.prefix_rfl
      · exact List.prefix_rfl
    · exact List.prefix_rfl

/-- A target that is left alone as a whole is left alone by every step: no step makes it longer, so
that none can make it shorter. -/
theorem steps_eq_self {target : Text} (same : stripAll target = target) :
    strip '"' target = target ∧ strip '\'' target = target ∧ trimBlank target = target := by
  have double := strip_isPrefix '"' target
  have single := strip_isPrefix '\'' (strip '"' target)
  have trimmed : (trimBlank (strip '\'' (strip '"' target))).length ≤
      (strip '\'' (strip '"' target)).length := length_trimBoth_le _
  have whole : (trimBlank (strip '\'' (strip '"' target))).length = target.length :=
    congrArg List.length same
  have doubleLength := double.length_le
  have singleLength := single.length_le
  have doubleEq : strip '"' target = target := double.eq_of_length (by omega)
  have singleEq : strip '\'' (strip '"' target) = strip '"' target :=
    single.eq_of_length (by omega)
  rw [doubleEq] at singleEq
  rw [stripAll, doubleEq, singleEq] at same
  exact ⟨doubleEq, singleEq, same⟩

/-- A title after white space is taken away with all the white space before it. -/
theorem strip_of_title {quote : Char} {blanks title : Text} (blanksNe : blanks ≠ [])
    (areBlank : ∀ c ∈ blanks, isBlank c = true) (noQuote : quote ∉ title) (front : Text) :
    strip quote (front ++ blanks ++ quote :: title ++ [quote]) =
      (front.reverse.dropWhile isBlank).reverse := by
  have reversed : (front ++ blanks ++ quote :: title ++ [quote]).reverse =
      quote :: (title.reverse ++ quote :: (blanks.reverse ++ front.reverse)) := by
    simp
  have inTitle : ∀ c ∈ title.reverse, (c != quote) = true :=
    bne_of_not_mem (by simpa using noQuote)
  have areBlankBack : ∀ c ∈ blanks.reverse, isBlank c = true := by
    intro c mem
    exact areBlank c (List.mem_reverse.1 mem)
  have startsBlank : (blanks.reverse ++ front.reverse).head?.any isBlank = true := by
    rcases List.exists_cons_of_ne_nil (List.reverse_ne_nil_iff.2 blanksNe) with
      ⟨blank, others, written⟩
    rw [written]
    exact areBlankBack blank (written ▸ List.mem_cons_self)
  unfold strip
  rw [reversed]
  simp only [if_true, List.dropWhile_append_of_pos inTitle, List.dropWhile_cons,
    bne_self_eq_false, Bool.false_eq_true, if_false, startsBlank,
    List.dropWhile_append_of_pos areBlankBack]

/-- The quotes that a title can stand in. -/
inductive Quote where
  | double
  | single

def Quote.mark : Quote → Char
  | double => '"'
  | single => '\''

/-- A title with the white space before it, as it can be written after the URL of a link. -/
structure Clause where
  blanks : Text
  quote : Quote
  title : Text
  blanksNe : blanks ≠ []
  areBlank : ∀ c ∈ blanks, isBlank c = true ∧ c ≠ '\n'
  inQuotes : ∀ c ∈ title, c ≠ quote.mark ∧ c ≠ ')' ∧ c ≠ '\n'

namespace Clause

def written (clause : Clause) : Text :=
  clause.blanks ++ clause.quote.mark :: clause.title ++ [clause.quote.mark]

theorem mem_written {clause : Clause} {c : Char} (mem : c ∈ clause.written) :
    c ≠ ')' ∧ c ≠ '\n' := by
  have mark : clause.quote.mark ≠ ')' ∧ clause.quote.mark ≠ '\n' := by
    cases clause.quote <;> decide
  simp only [written, List.append_assoc, List.cons_append, List.mem_append, List.mem_cons,
    List.not_mem_nil, or_false] at mem
  rcases mem with blank | rfl | inTitle | rfl
  · rcases clause.areBlank c blank with ⟨isBlank, notNewline⟩
    refine ⟨?_, notNewline⟩
    rintro rfl
    cases isBlank
  · exact mark
  · exact (clause.inQuotes c inTitle).2
  · exact mark

theorem getLast?_written (clause : Clause) (url : Text) :
    (url ++ clause.written).getLast? = some clause.quote.mark := by
  rw [written, ← List.append_assoc]
  exact List.getLast?_concat

end Clause

/-- A title is taken away with its white space, and nothing else is. -/
theorem strip_append_clause {url : Text} (last : ∀ c ∈ url.getLast?, isBlank c = false)
    (clause : Clause) : strip clause.quote.mark (url ++ clause.written) = url := by
  have areBlank : ∀ c ∈ clause.blanks, isBlank c = true := fun c mem => (clause.areBlank c mem).1
  have noMark : clause.quote.mark ∉ clause.title := fun mem => (clause.inQuotes _ mem).1 rfl
  have kept : url.reverse.dropWhile isBlank = url.reverse := by
    apply dropWhile_eq_self
    rw [List.head?_reverse]
    exact last
  have taken := strip_of_title clause.blanksNe areBlank noMark url
  rw [kept, List.reverse_reverse] at taken
  simpa [Clause.written] using taken

/-- Whatever quotes a title stands in, it is taken away again. -/
theorem stripAll_append_clause {url : Text} (same : stripAll url = url) (clause : Clause) :
    stripAll (url ++ clause.written) = url := by
  rcases steps_eq_self same with ⟨double, single, trimmed⟩
  have last : ∀ c ∈ url.getLast?, isBlank c = false := not_of_trimBoth_eq_self trimmed
  have taken := strip_append_clause last clause
  have ending := clause.getLast?_written url
  cases quote : clause.quote with
  | double =>
    rw [quote] at taken
    rw [stripAll, show strip '"' (url ++ clause.written) = url from taken, single, trimmed]
  | single =>
    rw [quote] at taken ending
    have noDouble : strip '"' (url ++ clause.written) = url ++ clause.written := by
      apply strip_eq_self
      rw [ending]
      decide
    rw [stripAll, noDouble, show strip '\'' (url ++ clause.written) = url from taken, trimmed]

end Title

end MarkdownLinks
