import MarkdownLinks.Text.Lowercase

/-!
# Texts in lower case

A text in lower case is its own lower case.  The runs of the table lead to code points that no run
covers, and neither of the two characters with rules of their own comes out of a mapping, so that
what stands around a character no longer matters.
-/

namespace MarkdownLinks

namespace CaseRun

/-- Whether the code points to which a run leads lie beside another run, or between the code points
that it covers. -/
def leadsPast (run other : CaseRun) : Bool :=
  run.target + (run.last - run.first) < other.first || other.last < run.target ||
    other.step == 2 && (run.step == 2 || run.first == run.last) && run.target % 2 != other.first % 2

variable {run other : CaseRun} {code : Nat}

theorem apply_bounds (covered : run.covers code = true) :
    run.target ≤ run.apply code ∧ run.apply code ≤ run.target + (run.last - run.first) := by
  simp only [covers, Bool.and_eq_true, decide_eq_true_eq] at covered
  rcases covered with ⟨⟨above, below⟩, -⟩
  simp only [apply]
  omega

theorem covers_apply_eq_false (past : run.leadsPast other = true)
    (covered : run.covers code = true) : other.covers (run.apply code) = false := by
  rcases apply_bounds covered with ⟨fromTarget, upTo⟩
  apply Bool.eq_false_iff.2
  intro again
  simp only [covers, Bool.and_eq_true, decide_eq_true_eq, beq_iff_eq] at covered again
  rcases covered with ⟨⟨above, below⟩, onStep⟩
  rcases again with ⟨⟨aboveOther, belowOther⟩, onOtherStep⟩
  simp only [leadsPast, Bool.or_eq_true, Bool.and_eq_true, decide_eq_true_eq, beq_iff_eq,
    bne_iff_ne] at past
  rcases past with (before | behind) | ⟨⟨otherStep, runStep⟩, parity⟩
  · omega
  · omega
  · -- Both runs go over every second code point, and the images are of the other parity.
    rw [otherStep] at onOtherStep
    simp only [apply] at onOtherStep aboveOther
    rcases runStep with runStep | single
    · rw [runStep] at onStep
      omega
    · omega

end CaseRun

theorem leadsPast_of_mem {run other : CaseRun} (runMem : run ∈ lowercaseRuns)
    (otherMem : other ∈ lowercaseRuns) : run.leadsPast other = true := by
  have allPast : (lowercaseRuns.all fun run => lowercaseRuns.all run.leadsPast) = true := by
    decide +kernel
  exact List.all_eq_true.1 (List.all_eq_true.1 allPast run runMem) other otherMem

/-- The lower case of a code point is the code point itself, if no run covers it, or where one that
covers it leads. -/
theorem lowercaseCode_cases (code : Nat) :
    (∀ run ∈ lowercaseRuns, run.covers code = false) ∧ lowercaseCode code = code ∨
      ∃ run ∈ lowercaseRuns, run.covers code = true ∧ lowercaseCode code = run.apply code := by
  cases found : lowercaseRuns.find? (·.covers code) with
  | none =>
    left
    refine ⟨?_, by rw [lowercaseCode, found]⟩
    simpa using found
  | some run =>
    right
    have covered : run.covers code = true := by
      simpa using List.find?_some found
    exact ⟨run, List.mem_of_find?_eq_some found, covered, by rw [lowercaseCode, found]⟩

theorem not_covers_lowercaseCode {run : CaseRun} (runMem : run ∈ lowercaseRuns) (code : Nat) :
    run.covers (lowercaseCode code) = false := by
  rcases lowercaseCode_cases code with ⟨uncovered, same⟩ | ⟨first, firstMem, covered, leads⟩
  · rw [same]
    exact uncovered run runMem
  · rw [leads]
    exact CaseRun.covers_apply_eq_false (leadsPast_of_mem firstMem runMem) covered

theorem lowercaseCode_eq_self {code : Nat}
    (uncovered : ∀ run ∈ lowercaseRuns, run.covers code = false) : lowercaseCode code = code := by
  rcases lowercaseCode_cases code with ⟨-, same⟩ | ⟨run, runMem, covered, -⟩
  · exact same
  · rw [uncovered run runMem] at covered
    cases covered

variable {c d : Char}

/-- The lower case of a code point is that of a character, and not of the dotted capital I. -/
theorem lowercaseCode_toNat (c : Char) (notDotted : c ≠ 'İ') :
    (lowercaseCode c.toNat).isValidChar ∧ lowercaseCode c.toNat ≠ 'İ'.toNat := by
  have bounds : ∀ run ∈ lowercaseRuns,
      (run.target + (run.last - run.first) < 0x130 ∨ 0x130 < run.target) ∧
        (run.target + (run.last - run.first) < 0xD800 ∨
          0xDFFF < run.target ∧ run.target + (run.last - run.first) < 0x110000) := by
    decide +kernel
  rcases lowercaseCode_cases c.toNat with ⟨-, same⟩ | ⟨run, runMem, covered, leads⟩
  · rw [same]
    refine ⟨c.valid, ?_⟩
    intro sameCode
    exact notDotted (Char.toNat_inj.1 sameCode)
  · rcases CaseRun.apply_bounds covered with ⟨fromTarget, upTo⟩
    have runBounds := bounds run runMem
    have dotted : 'İ'.toNat = 0x130 := rfl
    rw [leads, dotted]
    simp only [Nat.isValidChar]
    omega

/-- A character that came out of the mapping is its own lower case. -/
theorem lowercaseChar_of_mem_lowercaseChar (mem : d ∈ lowercaseChar c) : lowercaseChar d = [d] := by
  by_cases isDotted : c = 'İ'
  · rw [lowercaseChar, if_pos isDotted, List.mem_cons, List.mem_singleton] at mem
    rcases mem with rfl | rfl
    · decide
    · decide
  · rw [lowercaseChar, if_neg isDotted, List.mem_singleton] at mem
    rcases lowercaseCode_toNat c isDotted with ⟨valid, notDotted⟩
    have code : d.toNat = lowercaseCode c.toNat := by
      rw [mem, Char.ofNat, dif_pos valid]
      rfl
    have isOther : d ≠ 'İ' := by
      rintro rfl
      exact notDotted code.symm
    have fixed : lowercaseCode d.toNat = d.toNat := by
      apply lowercaseCode_eq_self
      intro run runMem
      rw [code]
      exact not_covers_lowercaseCode runMem c.toNat
    rw [lowercaseChar, if_neg isOther, fixed, Char.ofNat_toNat]

theorem lowercaseChar_of_mem_lowercaseAfter {before t : Text} (mem : c ∈ lowercaseAfter before t) :
    lowercaseChar c = [c] := by
  induction t generalizing before with
  | nil => cases mem
  | cons first rest ih =>
    rw [lowercaseAfter] at mem
    rcases List.mem_append.1 mem with lowered | later
    · split at lowered
      · split at lowered
        · rw [List.mem_singleton.1 lowered]
          decide
        · rw [List.mem_singleton.1 lowered]
          decide
      · exact lowercaseChar_of_mem_lowercaseChar lowered
    · exact ih later

theorem lowercaseChar_of_mem_lowercase {t : Text} (mem : c ∈ lowercase t) :
    lowercaseChar c = [c] :=
  lowercaseChar_of_mem_lowercaseAfter mem

theorem lowercaseAfter_eq_self {t : Text} (areLower : ∀ c ∈ t, lowercaseChar c = [c])
    (before : Text) : lowercaseAfter before t = t := by
  induction t generalizing before with
  | nil => rfl
  | cons first rest ih =>
    have isLower : lowercaseChar first = [first] := areLower first List.mem_cons_self
    have notSigma : first ≠ 'Σ' := by
      rintro rfl
      exact absurd isLower (by decide)
    rw [lowercaseAfter, if_neg notSigma, isLower,
      ih (fun c mem => areLower c (List.mem_cons_of_mem first mem)), List.singleton_append]

/-- A text of characters in lower case is its own lower case. -/
theorem lowercase_eq_self {t : Text} (areLower : ∀ c ∈ t, lowercaseChar c = [c]) :
    lowercase t = t :=
  lowercaseAfter_eq_self areLower []

end MarkdownLinks
