import MarkdownLinks.Proofs.Search.Documents

/-!
# Leaving out more names

A search that leaves out more names finds the same documents in the same order, without those whose
path below the root holds one of the names.  Whether a directory is not entered or what is below it
is left out afterwards makes no difference.
-/

namespace MarkdownLinks

/-- Whether a name is one of the given ones; a name that is not UTF-8 never is. -/
def Name.isAmong (name : Name) (texts : List Text) : Bool :=
  (Utf8.decode? name.bytes).any texts.contains

/-- The settings with more names that the search leaves out. -/
def Settings.excluding (settings : Settings) (texts : List Text) : Settings :=
  { settings with exclude := settings.exclude.insertAll texts }

theorem Settings.excludesName_excluding {settings : Settings} {texts : List Text} {name : Name} :
    (settings.excluding texts).excludesName name =
      (settings.excludesName name || name.isAmong texts) := by
  simp only [excludesName, Name.isAmong]
  cases Utf8.decode? name.bytes with
  | none => rfl
  | some text => simp [excludes, excluding]

namespace Path

/-- Whether no component of a path is one of the given names. -/
def avoids (p : Path) (texts : List Text) : Bool :=
  p.components.all fun
    | .name name => !name.isAmong texts
    | _ => true

theorem avoids_below (names : List Name) (texts : List Text) :
    (below names).avoids texts = names.all fun name => !name.isAmong texts := by
  rw [avoids, components_below, List.all_map]
  rfl

/-- Ascending lists of paths with the same members are equal. -/
theorem eq_of_ascending {l m : List Path} (lAscending : l.Pairwise fun p q => q.le p = false)
    (mAscending : m.Pairwise fun p q => q.le p = false) (same : ∀ p, p ∈ l ↔ p ∈ m) : l = m := by
  have nodup : ∀ {l : List Path}, (l.Pairwise fun p q => q.le p = false) → l.Nodup := by
    intro l ascending
    apply ascending.imp
    rintro p _ notLe rfl
    have self : p.le p = true := (le_total p p).elim id id
    rw [self] at notLe
    cases notLe
  have permutation : l.Perm m :=
    (List.perm_ext_iff_of_nodup (nodup lAscending) (nodup mAscending)).2 same
  apply permutation.eq_of_pairwise _ lAscending mAscending
  intro p q _ _ before after
  have total := le_total p q
  simp [before, after] at total

end Path

namespace Search

variable {disk : Disk} {settings : Settings} {base : List Name} {entries : Listing}

theorem documents_excluding (root : disk.entry (.ofNames base) = .ok (.directory entries))
    (texts : List Text) :
    documents disk (settings.excluding texts) (.ofNames base) =
      (documents disk settings (.ofNames base)).filter fun p =>
        (((Path.ofNames base).below? p).getD p).avoids texts := by
  rcases Disk.at?_of_entry root with ⟨_, -, reached⟩
  have distinct : entries.Distinct := disk.distinct.at? reached
  apply Path.eq_of_ascending (pairwise_documents root) ((pairwise_documents root).filter _)
  intro p
  rw [List.mem_filter, mem_documents_iff root, mem_documents_iff root]
  have keptIff : ∀ names : List Name, names ≠ [] →
      ((((Path.ofNames base).below? (.ofNames (base ++ names))).getD
        (.ofNames (base ++ names))).avoids texts = true ↔
          ∀ name ∈ names, name.isAmong texts = false) := by
    intro names nonempty
    rw [Path.below?_ofNames base nonempty, Option.getD_some, Path.avoids_below]
    simp
  constructor
  · rintro ⟨isDocument, names, mem, rfl⟩
    rcases (mem_namesBelow_iff distinct).1 mem with ⟨nonempty, found, kept⟩
    simp only [Settings.excludesName_excluding, Bool.or_eq_false_iff] at kept
    refine ⟨⟨isDocument, names, (mem_namesBelow_iff distinct).2 ⟨nonempty, found, ?_⟩, rfl⟩, ?_⟩
    · intro name nameMem
      exact (kept name nameMem).1
    · apply (keptIff names nonempty).2
      intro name nameMem
      exact (kept name nameMem).2
  · rintro ⟨⟨isDocument, names, mem, rfl⟩, avoids⟩
    rcases (mem_namesBelow_iff distinct).1 mem with ⟨nonempty, found, kept⟩
    refine ⟨isDocument, names, (mem_namesBelow_iff distinct).2 ⟨nonempty, found, ?_⟩, rfl⟩
    intro name nameMem
    rw [Settings.excludesName_excluding, kept name nameMem,
      (keptIff names nonempty).1 avoids name nameMem]
    rfl

end Search

end MarkdownLinks
