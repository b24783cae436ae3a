import MarkdownLinks.Proofs.Link.Spans
import MarkdownLinks.Proofs.Text.LineEnding

/-!
# Links and carriage returns

A link ends with its closing parenthesis, so that the links of a line do not depend on what follows
the last closing parenthesis.  A carriage return at the end of a line follows it, and is never part
of a link.
-/

namespace MarkdownLinks

/-- A prefix that ends before the rest of a list ends in the list itself. -/
theorem isPrefix_of_isPrefix_append {α : Type} {found l rest : List α} {last : α}
    (ends : found.getLast? = some last) (absent : last ∉ rest) (inWhole : found <+: l ++ rest) :
    found <+: l := by
  rcases List.prefix_or_prefix_of_prefix inWhole (List.prefix_append l rest) with shorter | longer
  · exact shorter
  · rcases longer with ⟨more, rfl⟩
    have inRest : more <+: rest := (List.prefix_append_right_inj l).1 inWhole
    rw [List.getLast?_append] at ends
    cases moreEnds : more.getLast? with
    | none =>
      have nothingMore : l ++ more = l := by
        rw [List.getLast?_eq_none_iff.1 moreEnds, List.append_nil]
      exact nothingMore.symm ▸ List.prefix_rfl
    | some c =>
      rw [moreEnds] at ends
      cases ends
      exact absurd (inRest.subset (List.mem_of_getLast? moreEnds)) absent

namespace Link

variable {t tail : Text}

theorem Span.standsIn_append_iff (noParen : ')' ∉ tail) {span : Span} :
    span.StandsIn (t ++ tail) ↔ span.StandsIn t := by
  have ends : (written span.text span.target).getLast? = some ')' := List.getLast?_concat
  have absent : ')' ∉ tail.drop (span.start - t.length) := fun mem =>
    noParen (List.mem_of_mem_drop mem)
  constructor
  · rintro ⟨writable, found⟩
    rw [List.drop_append] at found
    exact ⟨writable, isPrefix_of_isPrefix_append ends absent found⟩
  · rintro ⟨writable, found⟩
    refine ⟨writable, ?_⟩
    rw [List.drop_append]
    exact found.trans (List.prefix_append _ _)

/-- What holds no closing parenthesis has no part in the spans of the text before it. -/
theorem AreSpansOf.append (noParen : ')' ∉ tail) {spans : List Span}
    (areSpans : AreSpansOf spans t) : AreSpansOf spans (t ++ tail) where
  stand span mem := (Span.standsIn_append_iff noParen).2 (areSpans.stand span mem)
  apart := areSpans.apart
  covered span stands := areSpans.covered span ((Span.standsIn_append_iff noParen).1 stands)

theorem onLine_append (noParen : ')' ∉ tail) (line : Nat) (t : Text) :
    onLine line (t ++ tail) = onLine line t := by
  rcases exists_spans t with ⟨spans, areSpans, links⟩
  rcases exists_spans (t ++ tail) with ⟨others, areOthers, otherLinks⟩
  rw [links, otherLinks, areOthers.unique (areSpans.append noParen)]

theorem onLines_map_append (noParen : ')' ∉ tail) (first : Nat) (texts : List Text) :
    onLines first (texts.map (· ++ tail)) = onLines first texts := by
  induction texts generalizing first with
  | nil => rfl
  | cons t rest ih => rw [List.map_cons, onLines, onLines, onLine_append noParen, ih]

/-- The links of a text do not depend on how its newlines are written. -/
theorem scan_toCrLf (t : Text) : scan (LineEnding.toCrLf t) = scan t := by
  rcases LineEnding.exists_lines_toCrLf t with ⟨ended, last, linesEq, crLfEq⟩
  have noParen : ')' ∉ ['\r'] := by decide
  rw [scan, scan, linesEq, crLfEq, onLines_append, onLines_append, onLines_map_append noParen,
    List.length_map]

end Link

end MarkdownLinks
