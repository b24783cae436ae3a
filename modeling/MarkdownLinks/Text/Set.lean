import MarkdownLinks.Text.Basic

/-!
# Sets of texts

A finite set of texts is kept as its members in ascending order, so that two sets with the same
members are equal and the first few members are the same in every run.  Texts are ordered by
code points, character by character; this is also the order of their UTF-8 bytes.
-/

namespace MarkdownLinks

/-- A finite set of texts, as its members in ascending order. -/
structure TextSet where
  toList : List Text
  ascending : toList.Pairwise (· < ·)

namespace TextSet

instance : Membership Text TextSet :=
  ⟨fun s t => t ∈ s.toList⟩

instance (t : Text) (s : TextSet) : Decidable (t ∈ s) :=
  inferInstanceAs (Decidable (t ∈ s.toList))

theorem mem_def {t : Text} {s : TextSet} : t ∈ s ↔ t ∈ s.toList :=
  Iff.rfl

theorem less_trichotomous {t u : Text} : ¬ t < u → ¬ u < t → t = u :=
  Std.Trichotomous.trichotomous t u

/-- Ascending lists with the same members are equal. -/
theorem eq_of_same_members {l m : List Text} (lAscending : l.Pairwise (· < ·))
    (mAscending : m.Pairwise (· < ·)) (same : ∀ t, t ∈ l ↔ t ∈ m) : l = m := by
  induction lAscending generalizing m with
  | nil =>
    cases m with
    | nil => rfl
    | cons u rest => exact absurd ((same u).2 List.mem_cons_self) List.not_mem_nil
  | @cons t l below _ ih =>
    cases mAscending with
    | nil => exact absurd ((same t).1 List.mem_cons_self) List.not_mem_nil
    | @cons u m belowU ascending =>
      have heads : t = u := by
        rcases List.mem_cons.1 ((same t).1 List.mem_cons_self) with equal | tMem
        · exact equal
        · rcases List.mem_cons.1 ((same u).2 List.mem_cons_self) with equal | uMem
          · exact equal.symm
          · exact absurd (List.lt_trans (below u uMem) (belowU t tMem)) (List.lt_irrefl t)
      subst heads
      have tails : ∀ v, v ∈ l ↔ v ∈ m := by
        intro v
        constructor
        · intro vMem
          rcases List.mem_cons.1 ((same v).1 (List.mem_cons_of_mem t vMem)) with rfl | vMem'
          · exact absurd (below v vMem) (List.lt_irrefl v)
          · exact vMem'
        · intro vMem
          rcases List.mem_cons.1 ((same v).2 (List.mem_cons_of_mem t vMem)) with rfl | vMem'
          · exact absurd (belowU v vMem) (List.lt_irrefl v)
          · exact vMem'
      rw [ih ascending tails]

@[ext]
theorem ext {s u : TextSet} (same : ∀ t, t ∈ s ↔ t ∈ u) : s = u := by
  obtain ⟨l, lAscending⟩ := s
  obtain ⟨m, mAscending⟩ := u
  have equal : l = m := eq_of_same_members lAscending mAscending same
  subst equal
  rfl

def empty : TextSet where
  toList := []
  ascending := .nil

/-- A member put in its place. -/
def insertInto (t : Text) : List Text → List Text
  | [] => [t]
  | u :: rest =>
    if t < u then t :: u :: rest
    else if t = u then u :: rest
    else u :: insertInto t rest

theorem mem_insertInto {t u : Text} {l : List Text} : u ∈ insertInto t l ↔ u = t ∨ u ∈ l := by
  induction l with
  | nil => simp [insertInto]
  | cons v rest ih =>
    rw [insertInto]
    split
    · simp
    · split
      · next same => simp [same]
      · simp only [List.mem_cons, ih]
        exact or_left_comm

theorem insertInto_ascending {t : Text} {l : List Text} (ascending : l.Pairwise (· < ·)) :
    (insertInto t l).Pairwise (· < ·) := by
  induction ascending with
  | nil => simp [insertInto]
  | @cons u rest below _ ih =>
    rw [insertInto]
    split
    · next less =>
      refine .cons ?_ (.cons below ‹_›)
      intro v vMem
      rcases List.mem_cons.1 vMem with rfl | vMem
      · exact less
      · exact List.lt_trans less (below v vMem)
    · split
      · exact .cons below ‹_›
      · next notLess notSame =>
        refine .cons ?_ ih
        intro v vMem
        rcases mem_insertInto.1 vMem with rfl | vMem
        · exact Decidable.byContradiction fun notMore =>
            notSame (less_trichotomous notLess notMore)
        · exact below v vMem

def insert (s : TextSet) (t : Text) : TextSet where
  toList := insertInto t s.toList
  ascending := insertInto_ascending s.ascending

def insertAll (s : TextSet) (texts : List Text) : TextSet :=
  texts.foldl insert s

def ofList (texts : List Text) : TextSet :=
  empty.insertAll texts

@[simp]
theorem mem_insert {s : TextSet} {t u : Text} : u ∈ s.insert t ↔ u = t ∨ u ∈ s :=
  mem_insertInto

@[simp]
theorem mem_insertAll {s : TextSet} {texts : List Text} {t : Text} :
    t ∈ s.insertAll texts ↔ t ∈ s ∨ t ∈ texts := by
  induction texts generalizing s with
  | nil => simp [insertAll]
  | cons u rest ih =>
    have step : s.insertAll (u :: rest) = (s.insert u).insertAll rest := rfl
    rw [step, ih, mem_insert, List.mem_cons]
    grind

@[simp]
theorem mem_ofList {texts : List Text} {t : Text} : t ∈ ofList texts ↔ t ∈ texts := by
  have notMem : t ∉ empty := List.not_mem_nil
  simp [ofList, notMem]

end TextSet

end MarkdownLinks
