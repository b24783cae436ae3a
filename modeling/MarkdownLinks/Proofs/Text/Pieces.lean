import MarkdownLinks.Text.Basic

/-!
# Pieces of a list

Cutting at every separator undoes joining with it, as long as no piece holds the separator.  Cutting
at the first separator finds the one place where the part before it is free of separators.
-/

namespace MarkdownLinks

section Pieces

variable {α : Type} [DecidableEq α] {sep : α}

theorem bne_of_not_mem {l : List α} (absent : sep ∉ l) : ∀ a ∈ l, (a != sep) = true := by
  intro a mem
  apply bne_iff_ne.2
  rintro rfl
  exact absent mem

theorem splitAtEach_of_not_mem {l : List α} (absent : sep ∉ l) : splitAtEach sep l = [l] := by
  induction l with
  | nil => rfl
  | cons a rest ih =>
    have headNe : a ≠ sep := by
      intro same
      exact absent (same ▸ List.mem_cons_self)
    have restAbsent : sep ∉ rest := by
      intro mem
      exact absent (List.mem_cons_of_mem a mem)
    simp only [splitAtEach, if_neg headNe, ih restAbsent]

/-- There is one piece more than there are separators. -/
theorem length_splitAtEach (l : List α) : (splitAtEach sep l).length = l.count sep + 1 := by
  induction l with
  | nil => rfl
  | cons a rest ih =>
    simp only [splitAtEach]
    split
    · next isSep => rw [List.length_cons, ih, isSep, List.count_cons_self]
    · next notSep =>
      rw [List.count_cons_of_ne notSep]
      cases pieces : splitAtEach sep rest with
      | nil => exact absurd pieces (splitAtEach_ne_nil rest)
      | cons piece more =>
        rw [pieces] at ih
        exact ih

/-- Cutting undoes joining. -/
theorem splitAtEach_intercalate {pieces : List (List α)} (nonempty : pieces ≠ [])
    (absent : ∀ piece ∈ pieces, sep ∉ piece) :
    splitAtEach sep ([sep].intercalate pieces) = pieces := by
  induction pieces with
  | nil => exact absurd rfl nonempty
  | cons piece more ih =>
    have pieceAbsent : sep ∉ piece := absent piece List.mem_cons_self
    cases more with
    | nil =>
      simp only [List.intercalate_singleton]
      exact splitAtEach_of_not_mem pieceAbsent
    | cons next others =>
      have rest : splitAtEach sep ([sep].intercalate (next :: others)) = next :: others := by
        apply ih (List.cons_ne_nil next others)
        intro other mem
        exact absent other (List.mem_cons_of_mem piece mem)
      rw [List.intercalate_cons_cons, List.append_assoc, List.singleton_append,
        splitAtEach_append, rest, splitAtEach_of_not_mem pieceAbsent]
      rfl

omit [DecidableEq α] in
theorem intercalate_append_of_ne_nil {pieces more : List (List α)} (piecesNe : pieces ≠ [])
    (moreNe : more ≠ []) :
    [sep].intercalate (pieces ++ more) =
      [sep].intercalate pieces ++ sep :: [sep].intercalate more := by
  induction pieces with
  | nil => exact absurd rfl piecesNe
  | cons piece rest ih =>
    cases rest with
    | nil =>
      simp only [List.singleton_append, List.intercalate_cons_of_ne_nil moreNe,
        List.intercalate_singleton, List.append_assoc]
    | cons next others =>
      rw [List.cons_append, List.intercalate_cons_of_ne_nil (by simp),
        ih (List.cons_ne_nil next others), List.intercalate_cons_cons, List.append_assoc,
        List.append_assoc, List.append_assoc]

omit [DecidableEq α] in
theorem mem_intercalate_iff {pieces : List (List α)} {a : α} (notSep : a ≠ sep) :
    a ∈ [sep].intercalate pieces ↔ ∃ piece ∈ pieces, a ∈ piece := by
  induction pieces with
  | nil => simp
  | cons piece rest ih =>
    cases rest with
    | nil => simp
    | cons next others =>
      rw [List.intercalate_cons_cons, List.mem_append, List.mem_append, List.mem_singleton, ih]
      simp [notSep]

/-- What is written at the end, without a separator, belongs to the last piece. -/
theorem exists_splitAtEach_append {tail : List α} (absent : sep ∉ tail) (l : List α) :
    ∃ pieces last, splitAtEach sep l = pieces ++ [last] ∧
      splitAtEach sep (l ++ tail) = pieces ++ [last ++ tail] := by
  induction l with
  | nil => exact ⟨[], [], rfl, splitAtEach_of_not_mem absent⟩
  | cons a rest ih =>
    rcases ih with ⟨pieces, last, restEq, tailEq⟩
    by_cases isSep : a = sep
    · refine ⟨[] :: pieces, last, ?_, ?_⟩
      · simp only [splitAtEach, if_pos isSep, restEq, List.cons_append]
      · simp only [List.cons_append, splitAtEach, if_pos isSep, tailEq]
    · cases pieces with
      | nil =>
        refine ⟨[], a :: last, ?_, ?_⟩
        · simp only [splitAtEach, if_neg isSep, restEq, List.nil_append]
        · simp only [List.cons_append, splitAtEach, if_neg isSep, tailEq, List.nil_append]
      | cons first more =>
        refine ⟨(a :: first) :: more, last, ?_, ?_⟩
        · simp only [splitAtEach, if_neg isSep, restEq, List.cons_append]
        · simp only [List.cons_append, splitAtEach, if_neg isSep, tailEq]

/-- The first separator stands after a part without separators. -/
theorem splitAtFirst?_eq_some_iff {l before after : List α} :
    splitAtFirst? sep l = some (before, after) ↔ l = before ++ sep :: after ∧ sep ∉ before := by
  induction l generalizing before with
  | nil => simp [splitAtFirst?]
  | cons a rest ih =>
    simp only [splitAtFirst?]
    split
    · next same =>
      subst same
      cases before with
      | nil => simp [eq_comm]
      | cons b more =>
        simp only [Option.some.injEq, Prod.mk.injEq, List.nil_eq, List.cons_append, List.cons.injEq,
          List.mem_cons, not_or]
        grind
    · next different =>
      cases before with
      | nil => simp [different]
      | cons b more =>
        simp only [Option.map_eq_some_iff, Prod.mk.injEq, Prod.exists, List.cons_append,
          List.cons.injEq, List.mem_cons, not_or]
        constructor
        · rintro ⟨before, after', found, ⟨rfl, rfl⟩, rfl⟩
          rcases ih.1 found with ⟨rfl, absent⟩
          exact ⟨⟨rfl, rfl⟩, Ne.symm different, absent⟩
        · rintro ⟨⟨rfl, rfl⟩, -, absent⟩
          exact ⟨more, after, ih.2 ⟨rfl, absent⟩, ⟨rfl, rfl⟩, rfl⟩

theorem splitAtFirst?_eq_none_iff {l : List α} : splitAtFirst? sep l = none ↔ sep ∉ l := by
  induction l with
  | nil => simp [splitAtFirst?]
  | cons a rest ih =>
    simp only [splitAtFirst?]
    split
    · next same => simp [same]
    · next different =>
      simp only [Option.map_eq_none_iff, ih, List.mem_cons, not_or]
      constructor
      · intro absent
        exact ⟨Ne.symm different, absent⟩
      · exact And.right

end Pieces

section Ends

variable {α : Type} {p : α → Bool}

theorem dropTrailing_eq_self {l : List α} (last : ∀ a ∈ l.getLast?, p a = false) :
    dropTrailing p l = l := by
  induction l with
  | nil => rfl
  | cons a rest ih =>
    cases rest with
    | nil => simp [dropTrailing, last a (by simp)]
    | cons b more =>
      have kept : dropTrailing p (b :: more) = b :: more := ih (by simpa using last)
      rw [dropTrailing, kept]

theorem dropWhile_eq_self {l : List α} (first : ∀ a ∈ l.head?, p a = false) :
    l.dropWhile p = l := by
  cases l with
  | nil => rfl
  | cons a rest => simp [first a (by simp)]

theorem trimBoth_eq_self {l : List α} (first : ∀ a ∈ l.head?, p a = false)
    (last : ∀ a ∈ l.getLast?, p a = false) : trimBoth p l = l := by
  simp only [trimBoth, dropWhile_eq_self first, dropTrailing_eq_self last]

theorem trimBoth_of_forall_not {l : List α} (kept : ∀ a ∈ l, p a = false) : trimBoth p l = l := by
  apply trimBoth_eq_self
  · intro a isHead
    exact kept a (List.mem_of_mem_head? isHead)
  · intro a isLast
    exact kept a (List.mem_of_mem_getLast? isLast)

/-- What is left is a beginning of the list. -/
theorem dropTrailing_isPrefix (l : List α) : dropTrailing p l <+: l := by
  induction l with
  | nil => exact List.prefix_rfl
  | cons a rest ih =>
    simp only [dropTrailing]
    split
    · next kept =>
      split
      · exact List.nil_prefix
      · simp
    · next b more kept =>
      rw [kept] at ih
      exact List.cons_prefix_cons.2 ⟨rfl, ih⟩

/-- What is kept of an end keeps everything before it. -/
theorem dropTrailing_append_of_ne_nil {b : List α} (kept : dropTrailing p b ≠ []) (a : List α) :
    dropTrailing p (a ++ b) = a ++ dropTrailing p b := by
  induction a with
  | nil => rfl
  | cons first rest ih =>
    rw [List.cons_append, dropTrailing, ih]
    rcases List.exists_cons_of_ne_nil (List.append_ne_nil_of_right_ne_nil rest kept) with
      ⟨next, more, whole⟩
    rw [whole, List.cons_append, whole]

theorem dropTrailing_append_of_eq_nil {b : List α} (trailing : dropTrailing p b = [])
    (a : List α) : dropTrailing p (a ++ b) = dropTrailing p a := by
  induction a with
  | nil => exact trailing
  | cons first rest ih => rw [List.cons_append, dropTrailing, dropTrailing, ih]

theorem length_trimBoth_le (l : List α) : (trimBoth p l).length ≤ l.length :=
  Nat.le_trans (dropTrailing_isPrefix _).length_le (List.dropWhile_sublist p).length_le

theorem not_of_getLast?_dropTrailing (l : List α) :
    ∀ a ∈ (dropTrailing p l).getLast?, p a = false := by
  induction l with
  | nil => simp [dropTrailing]
  | cons a rest ih =>
    simp only [dropTrailing]
    split
    · split
      · simp
      · next notTrailing => simpa using notTrailing
    · next b more kept =>
      rw [kept] at ih
      rw [List.getLast?_cons_cons]
      exact ih

/-- A list that trimming leaves alone ends with an element that is kept. -/
theorem not_of_trimBoth_eq_self {l : List α} (same : trimBoth p l = l) :
    ∀ a ∈ l.getLast?, p a = false := by
  intro a isLast
  rw [← same] at isLast
  exact not_of_getLast?_dropTrailing _ a isLast

theorem mem_of_mem_dropTrailing {l : List α} {a : α} (mem : a ∈ dropTrailing p l) : a ∈ l := by
  induction l with
  | nil => exact mem
  | cons b rest ih =>
    simp only [dropTrailing] at mem
    split at mem
    · split at mem
      · cases mem
      · simp only [List.mem_singleton.1 mem]
        exact List.mem_cons_self
    · next c kept restKept =>
      rcases List.mem_cons.1 mem with rfl | keptMem
      · exact List.mem_cons_self
      · exact List.mem_cons_of_mem b (ih (restKept ▸ keptMem))

theorem mem_of_mem_trimBoth {l : List α} {a : α} (mem : a ∈ trimBoth p l) : a ∈ l :=
  (List.dropWhile_sublist p).subset (mem_of_mem_dropTrailing mem)

theorem eq_mark_or_mem_of_mem_replaceRuns {mark : α} {l : List α} {a : α}
    (mem : a ∈ replaceRuns p mark l) : a = mark ∨ a ∈ l ∧ p a = false := by
  induction l with
  | nil => cases mem
  | cons b rest ih =>
    simp only [replaceRuns] at mem
    grind

end Ends

end MarkdownLinks
