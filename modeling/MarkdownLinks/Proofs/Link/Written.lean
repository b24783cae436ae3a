import MarkdownLinks.Proofs.Link.Lines

/-!
# Links as they are written

A link that is written with brackets and parentheses is found again, as long as neither its text nor
its target holds what ends them.
-/

namespace MarkdownLinks

namespace Link

/-- A link with a text and a target, as it is written in a document. -/
def written (text target : Text) : Text :=
  '[' :: text ++ ']' :: '(' :: target ++ [')']

/-- Whether a text and a target can stand in a link: neither is empty, and neither holds the mark
that ends it. -/
structure IsWritable (text target : Text) : Prop where
  textNe : text ≠ []
  noBracket : ']' ∉ text
  targetNe : target ≠ []
  noParen : ')' ∉ target

section Written

variable {text target : Text}

/-- A written link is found whatever follows it. -/
theorem matchAt?_written (writable : IsWritable text target) (rest : Text) :
    matchAt? (written text target ++ rest) = some ⟨text, target, rest⟩ := by
  rcases writable with ⟨textNe, noBracket, targetNe, noParen⟩
  have inText : ∀ c ∈ text, (c != ']') = true := bne_of_not_mem noBracket
  have inTarget : ∀ c ∈ target, (c != ')') = true := bne_of_not_mem noParen
  have shape : written text target ++ rest =
      '[' :: (text ++ ']' :: '(' :: (target ++ ')' :: rest)) := by
    simp [written]
  simp only [shape, matchAt?]
  simp [List.dropWhile_append_of_pos inText, List.takeWhile_append_of_pos inText,
    List.dropWhile_append_of_pos inTarget, List.takeWhile_append_of_pos inTarget, textNe, targetNe]

/-- What stands before the first mark, the mark, and what stands after it. -/
theorem eq_of_dropWhile_ne {mark c : Char} {t rest : Text}
    (cut : t.dropWhile (· != mark) = c :: rest) :
    t = t.takeWhile (· != mark) ++ mark :: rest ∧ mark ∉ t.takeWhile (· != mark) := by
  have isMark : c = mark := by
    have head := List.head?_dropWhile_not (· != mark) t
    simpa [cut] using head
  constructor
  · calc t = t.takeWhile (· != mark) ++ t.dropWhile (· != mark) :=
          List.takeWhile_append_dropWhile.symm
      _ = t.takeWhile (· != mark) ++ mark :: rest := by rw [cut, isMark]
  · intro mem
    simpa using List.all_eq_true.1 List.all_takeWhile mark mem

/-- Whatever is found is a written link. -/
theorem isWritable_of_matchAt? {t : Text} {found : Match} (hit : matchAt? t = some found) :
    IsWritable found.text found.target ∧
      t = written found.text found.target ++ found.rest := by
  unfold matchAt? at hit
  split at hit
  · next afterOpen =>
    split at hit
    · next afterParen closeAt =>
      split at hit
      · next rest endAt =>
        rcases eq_of_dropWhile_ne closeAt with ⟨opened, noBracket⟩
        rcases eq_of_dropWhile_ne endAt with ⟨ended, noParen⟩
        simp only at hit
        split at hit
        · cases hit
        · next nonempty =>
          cases hit
          simp only [Bool.or_eq_true, List.isEmpty_iff, not_or] at nonempty
          refine ⟨⟨nonempty.1, noBracket, nonempty.2, noParen⟩, ?_⟩
          simp only [written, List.cons_append, List.append_assoc, List.nil_append, List.cons.injEq,
            true_and]
          rw [← ended]
          exact opened
      · cases hit
    · cases hit
  · cases hit

theorem matchesOn_of_matchAt? {t : Text} {found : Match} (hit : matchAt? t = some found) :
    matchesOn t = found :: matchesOn found.rest := by
  rw [matchesOn]
  split
  · next other otherHit =>
    simp only [hit] at otherHit
    cases otherHit
    rfl
  · next miss =>
    simp only [hit] at miss
    cases miss

theorem matchesOn_nil : matchesOn [] = [] := by
  rw [matchesOn]
  split
  · next found hit => cases hit
  · rfl

theorem matchesOn_cons {c : Char} {rest : Text} (miss : matchAt? (c :: rest) = none) :
    matchesOn (c :: rest) = matchesOn rest := by
  rw [matchesOn]
  split
  · next found hit =>
    rw [miss] at hit
    cases hit
  · rfl

theorem matchesOn_written (writable : IsWritable text target) (rest : Text) :
    matchesOn (written text target ++ rest) = ⟨text, target, rest⟩ :: matchesOn rest :=
  matchesOn_of_matchAt? (matchAt?_written writable rest)

theorem scan_nil : scan [] = [] := by
  rw [scan_of_not_mem List.not_mem_nil, onLine, matchesOn_nil]
  rfl

/-- The only link on a line that holds a written link alone is that link. -/
theorem scan_written (textNe : text ≠ []) (noBracket : ']' ∉ text) (textLine : '\n' ∉ text)
    (targetNe : target ≠ []) (noParen : ')' ∉ target) (targetLine : '\n' ∉ target) :
    scan (written text target) = [⟨1, text, Title.stripAll target⟩] := by
  have oneLine : '\n' ∉ written text target := by
    simp [written, textLine, targetLine]
  have found := matchesOn_written ⟨textNe, noBracket, targetNe, noParen⟩ []
  rw [List.append_nil, matchesOn_nil] at found
  rw [scan_of_not_mem oneLine, onLine, found]
  rfl

end Written

end Link

end MarkdownLinks
