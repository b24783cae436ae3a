import MarkdownLinks.Proofs.Text.Blank

/-!
# Lower case around blanks

Whether a sigma ends a word is decided without looking over a blank, so that the parts of a text
before and after a blank are put into lower case each on its own.
-/

namespace MarkdownLinks

variable {blank : Char}

theorem startsCased_append_blank (isBlank : isBlank blank = true) (t rest : Text) :
    startsCased (t ++ blank :: rest) = startsCased t := by
  have notSkipped : isCaseIgnorable blank = false := not_isCaseIgnorable_of_isBlank isBlank
  have notCased : isCased blank = false := not_isCased_of_isBlank isBlank
  simp only [startsCased, List.dropWhile_append]
  cases left : t.dropWhile isCaseIgnorable with
  | nil => simp [notSkipped, notCased]
  | cons c more => rfl

/-- What stands before a blank has no part in the lower case of what stands after it. -/
theorem lowercaseAfter_append_blank (isBlank : isBlank blank = true) (before other t : Text) :
    lowercaseAfter (before ++ blank :: other) t = lowercaseAfter before t := by
  induction t generalizing before with
  | nil => rfl
  | cons c rest ih =>
    have longer := ih (c :: before)
    rw [List.cons_append] at longer
    simp only [lowercaseAfter, startsCased_append_blank isBlank, longer]

/-- What stands after a blank has no part in the lower case of what stands before it. -/
theorem lowercaseAfter_blank (isBlank : isBlank blank = true) (before t rest : Text) :
    lowercaseAfter before (t ++ blank :: rest) =
      lowercaseAfter before t ++ lowercaseAfter (t.reverse ++ before) (blank :: rest) := by
  induction t generalizing before with
  | nil => rfl
  | cons c more ih =>
    have start := startsCased_append_blank isBlank more rest
    rw [List.cons_append, lowercaseAfter, lowercaseAfter, start, ih (c :: before),
      List.reverse_cons, List.append_assoc, List.append_assoc, List.singleton_append]

/-- Lower case goes part by part. -/
theorem lowercase_append_blank (isBlank : isBlank blank = true) (a b : Text) :
    lowercase (a ++ blank :: b) = lowercase a ++ blank :: lowercase b := by
  have notSigma : blank ≠ 'Σ' := ne_of_isBlank isBlank (by decide)
  have after : lowercaseAfter (blank :: a.reverse) b = lowercase b :=
    lowercaseAfter_append_blank isBlank [] a.reverse b
  calc lowercase (a ++ blank :: b)
      = lowercase a ++ lowercaseAfter a.reverse (blank :: b) := by
        rw [lowercase, lowercaseAfter_blank isBlank, List.append_nil]
        rfl
    _ = lowercase a ++ blank :: lowercase b := by
        simp only [lowercaseAfter, if_neg notSigma, lowercaseChar_of_isBlank isBlank, after,
          List.singleton_append]

end MarkdownLinks
