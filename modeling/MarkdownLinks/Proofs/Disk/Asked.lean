import MarkdownLinks.Proofs.Disk.Canonical

/-!
# What is asked for on the way

Where names are followed through no link, only the paths of the first of them are asked for, and
none of these is longer than the path of all names.  A slash after a path adds one question: the
canonical path, with the slash.
-/

namespace MarkdownLinks

namespace Path

theorem length_bytes_le_join (p : Path) {q : Path} (relative : q.isAbsolute = false) :
    p.bytes.length ≤ (p.join q).bytes.length := by
  rw [join, if_neg (by simp [relative])]
  split <;> simp

theorem length_bytes_ofNames_le {front names : List Name} (isPrefix : front <+: names) :
    (ofNames front).bytes.length ≤ (ofNames names).bytes.length := by
  rcases isPrefix with ⟨more, rfl⟩
  by_cases nothingMore : more = []
  · simp [nothingMore]
  · rw [← join_below front nothingMore]
    exact length_bytes_le_join _ (isAbsolute_below more)

end Path

namespace Listing

theorem needDirectory_names (names : List Name) : needDirectory (names.map .into) = false := by
  cases names <;> rfl

theorem needDirectory_concat_stay {rest : List Move} (nonempty : rest ≠ []) :
    needDirectory (rest ++ [.stay]) = needDirectory rest := by
  fun_induction needDirectory rest with
  | case1 => exact absurd rfl nonempty
  | case2 => rfl
  | case3 rest notEmpty ih =>
    have restNe : rest ≠ [] := by
      rintro rfl
      exact notEmpty rfl
    rw [← ih restNe]
    cases rest with
    | nil => exact absurd rfl restNe
    | cons move more => rfl
  | case4 => rfl
  | case5 => rfl

theorem mem_askedAt_iff {names : List Name} {rest : List Move} {a : Path} :
    a ∈ askedAt names rest ↔
      a = .ofNames names ∨ needDirectory rest = true ∧ a = (Path.ofNames names).append ['/'] := by
  unfold askedAt
  cases needDirectory rest <;> simp

theorem mem_askedAt_concat_stay_iff {names : List Name} {rest : List Move} {a : Path} :
    a ∈ askedAt names (rest ++ [.stay]) ↔
      a ∈ askedAt names rest ∨ rest = [] ∧ a = (Path.ofNames names).append ['/'] := by
  by_cases nothing : rest = []
  · subst nothing
    simp [mem_askedAt_iff, needDirectory]
  · simp [mem_askedAt_iff, needDirectory_concat_stay nothing, nothing]

section Asked

variable {root entries : Listing} {asks : List Name → Path → List Move → List Path}
  {follow : List Name → Path → List Move → Except IoError (List Name)}
  {here found : List Name} {moves : List Move} {a : Path}

theorem asked_into_link {name : Name} {target : Path} {rest : List Move}
    (isLink : root.at? (here ++ [name]) = some (.link target)) :
    root.asked asks here (.into name :: rest) =
      .ofNames (here ++ [name]) :: asks here target rest := by
  simp only [asked, isLink]

theorem asked_into {name : Name} {entry : Entry} {rest : List Move}
    (isEntry : root.at? (here ++ [name]) = some entry)
    (notLink : ∀ target, entry ≠ .link target) :
    root.asked asks here (.into name :: rest) =
      askedAt (here ++ [name]) rest ++ root.asked asks (here ++ [name]) rest := by
  simp only [asked, isEntry]

/-- Through no link, only the paths of the first names are asked for. -/
theorem exists_prefix_of_mem_asked {names : List Name} {entry : Entry}
    (reached : root.at? (here ++ names) = some entry) (notLink : ∀ target, entry ≠ .link target)
    (mem : a ∈ root.asked asks here (names.map .into)) :
    ∃ front, front <+: here ++ names ∧ a = .ofNames front := by
  induction names generalizing here with
  | nil => cases mem
  | cons name rest ih =>
    rw [← List.singleton_append, ← List.append_assoc] at reached ⊢
    have onTheWay : ∃ next, root.at? (here ++ [name]) = some next ∧
        ∀ target, next ≠ .link target := by
      by_cases isLast : rest = []
      · subst isLast
        exact ⟨entry, by simpa using reached, notLink⟩
      · rcases exists_directory_of_at?_append reached isLast with ⟨inner, isDirectory⟩
        exact ⟨_, isDirectory, by simp⟩
    rcases onTheWay with ⟨next, isNext, nextNotLink⟩
    rw [List.map_cons, asked_into isNext nextNotLink] at mem
    rcases List.mem_append.1 mem with now | later
    · rcases mem_askedAt_iff.1 now with isPath | ⟨needed, -⟩
      · exact ⟨here ++ [name], List.prefix_append _ _, isPath⟩
      · rw [needDirectory_names] at needed
        cases needed
    · exact ih reached later

theorem mem_asked_concat_stay
    (followed : ∀ here target rest, a ∈ asks here target rest →
      a ∈ asks here target (rest ++ [.stay]))
    (mem : a ∈ root.asked asks here moves) : a ∈ root.asked asks here (moves ++ [.stay]) := by
  induction moves generalizing here with
  | nil => cases mem
  | cons move rest ih =>
    cases move with
    | stay => exact ih mem
    | up => exact ih mem
    | into name =>
      simp only [List.cons_append, asked] at mem ⊢
      split at mem
      · rcases List.mem_cons.1 mem with isPath | behind
        · exact List.mem_cons.2 (.inl isPath)
        · exact List.mem_cons_of_mem _ (followed _ _ _ behind)
      · rcases List.mem_append.1 mem with now | later
        · exact List.mem_append_left _ (mem_askedAt_concat_stay_iff.2 (.inl now))
        · exact List.mem_append_right _ (ih later)
      · exact mem_askedAt_concat_stay_iff.2 (.inl mem)

/-- Where moves arrive, one more that stays asks for the path of this place with a slash, and for
nothing else that was not asked for before. -/
theorem mem_asked_of_concat_stay
    (followed : ∀ here target rest, follow here target rest = .ok found →
      a ∈ asks here target (rest ++ [.stay]) →
        a ∈ asks here target rest ∨ a = (Path.ofNames found).append ['/'])
    (arrived : root.travel follow here moves = .ok found)
    (mem : a ∈ root.asked asks here (moves ++ [.stay])) :
    a ∈ root.asked asks here moves ∨ a = (Path.ofNames found).append ['/'] := by
  induction moves generalizing here with
  | nil => cases mem
  | cons move rest ih =>
    rcases exists_directory_of_travel_cons arrived with ⟨entries, start⟩
    cases move with
    | stay =>
      rw [travel_stay start] at arrived
      exact ih arrived mem
    | up =>
      rw [travel_up start] at arrived
      exact ih arrived mem
    | into name =>
      have reached : root.at? (here ++ [name]) = entries.find? name := by
        rw [at?_append start, at?_singleton]
      rw [List.cons_append] at mem
      rcases travel_into_eq_ok start arrived with
        ⟨target, isLink, behind⟩ | ⟨entry, isEntry, notLink, onward⟩
      · rw [asked_into_link (reached.trans isLink), List.mem_cons] at mem ⊢
        rcases mem with isPath | mem
        · exact .inl (.inl isPath)
        · exact (followed _ _ _ behind mem).imp_left .inr
      · rw [asked_into (reached.trans isEntry) notLink, List.mem_append] at mem ⊢
        rcases mem with now | later
        · rcases mem_askedAt_concat_stay_iff.1 now with before | ⟨rfl, isSlashed⟩
          · exact .inl (.inl before)
          · rw [travel] at onward
            cases onward
            exact .inr isSlashed
        · exact (ih onward later).imp_left .inr

end Asked

section OnWay

variable {root : Listing} {here found : List Name} {moves : List Move} {links : Nat} {a : Path}

/-- What is asked for is what is asked for along the moves, whatever is asked for behind a link. -/
theorem exists_askedOnWay_eq_asked (root : Listing) (links : Nat) :
    ∃ asks, ∀ here moves, root.askedOnWay links here moves = root.asked asks here moves := by
  cases links with
  | zero => exact ⟨_, fun _ _ => by rw [askedOnWay]⟩
  | succ links => exact ⟨_, fun _ _ => by rw [askedOnWay]⟩

theorem mem_askedOnWay_concat_stay (mem : a ∈ root.askedOnWay links here moves) :
    a ∈ root.askedOnWay links here (moves ++ [.stay]) := by
  induction links generalizing here moves with
  | zero =>
    rw [askedOnWay] at mem ⊢
    exact mem_asked_concat_stay (fun _ _ _ behind => behind) mem
  | succ links ih =>
    rw [askedOnWay] at mem ⊢
    apply mem_asked_concat_stay _ mem
    intro here target rest behind
    rw [← List.append_assoc]
    exact ih behind

theorem mem_askedOnWay_of_concat_stay (arrived : root.resolve links here moves = .ok found)
    (mem : a ∈ root.askedOnWay links here (moves ++ [.stay])) :
    a ∈ root.askedOnWay links here moves ∨ a = (Path.ofNames found).append ['/'] := by
  induction links generalizing here moves with
  | zero =>
    rw [askedOnWay] at mem ⊢
    rw [resolve] at arrived
    exact mem_asked_of_concat_stay (fun _ _ _ _ behind => .inl behind) arrived mem
  | succ links ih =>
    rw [askedOnWay] at mem ⊢
    rw [resolve] at arrived
    apply mem_asked_of_concat_stay _ arrived mem
    intro here target rest followed behind
    rw [← List.append_assoc] at behind
    exact ih followed behind

end OnWay

end Listing

end MarkdownLinks
