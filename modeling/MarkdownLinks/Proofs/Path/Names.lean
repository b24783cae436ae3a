import MarkdownLinks.Proofs.Path.Position

/-!
# Paths made of names

The absolute path through a list of names, and what it becomes when a relative path is written
after it.  The names can be read off the path, and going on with more names is writing them after
it.
-/

namespace MarkdownLinks

theorem Move.lexical_append (start : List Name) (moves more : List Move) :
    lexical start (moves ++ more) = lexical (lexical start moves) more := by
  induction moves generalizing start with
  | nil => rfl
  | cons move rest ih => cases move <;> exact ih _

namespace Path

theorem moves_ofNames {names : List Name} (nonempty : names ≠ []) :
    (ofNames names).moves = .stay :: names.map .into := by
  have areSteps : ∀ c ∈ names.map Component.name, c.IsStep := Component.isStep_names names
  simp only [ofNames, moves_ofComponents areSteps (by simpa using nonempty), List.map_map]
  rfl

@[simp]
theorem components_ofNames (names : List Name) :
    (ofNames names).components = .root :: names.map .name :=
  components_ofComponents (Component.isStep_names names)

theorem lexical_names (here names : List Name) :
    Move.lexical here (names.map .into) = here ++ names := by
  induction names generalizing here with
  | nil => simp [Move.lexical]
  | cons name rest ih => simp [Move.lexical, ih]

theorem lexical_moves_ofNames (names : List Name) :
    Move.lexical [] (ofNames names).moves = names := by
  by_cases nonempty : names = []
  · subst nonempty
    rfl
  · simp only [moves_ofNames nonempty, Move.lexical, lexical_names, List.nil_append]

theorem ofNames_injective {names others : List Name} (same : ofNames names = ofNames others) :
    names = others := by
  rw [← lexical_moves_ofNames names, same, lexical_moves_ofNames]

/-- The relative path through a list of names. -/
def below (names : List Name) : Path :=
  ofComponents (names.map .name)

theorem bytes_below (names : List Name) :
    (below names).bytes = [slash].intercalate (names.map Name.bytes) := by
  simp only [below, ofComponents_steps (Component.isStep_names names), List.map_map]
  rfl

theorem bytes_ofNames (names : List Name) :
    (ofNames names).bytes = slash :: [slash].intercalate (names.map Name.bytes) := by
  simp [ofNames, ofComponents, Component.bytes, Function.comp_def]

theorem isAbsolute_below (names : List Name) : (below names).isAbsolute = false :=
  isAbsolute_steps (Component.isStep_names names)

theorem components_below (names : List Name) : (below names).components = names.map .name :=
  components_steps (Component.isStep_names names)

theorem getLast?_bytes_ofNames {names : List Name} (nonempty : names ≠ []) :
    (ofNames names).bytes.getLast? ≠ some slash := by
  rcases names.eq_nil_or_concat with rfl | ⟨outer, last, rfl⟩
  · exact absurd rfl nonempty
  · have ending : ∃ front, (ofNames (outer.concat last)).bytes = front ++ last.bytes := by
      simp only [bytes_ofNames, List.concat_eq_append, List.map_append]
      by_cases alone : outer = []
      · exact ⟨[slash], by simp [alone]⟩
      · rw [List.map_cons, List.map_nil,
          intercalate_append_of_ne_nil (by simpa using alone) (by simp)]
        exact ⟨slash :: ([slash].intercalate (outer.map Name.bytes) ++ [slash]), by simp⟩
    rcases ending with ⟨front, written⟩
    intro isSlash
    simp only [written, List.getLast?_append, List.getLast?_eq_some_getLast last.bytes_ne_nil,
      Option.some_or, Option.some.injEq] at isSlash
    exact last.slash_not_mem (isSlash ▸ List.getLast_mem last.bytes_ne_nil)

theorem join_ofNames {names : List Name} {q : Path} (nonempty : names ≠ [])
    (relative : q.isAbsolute = false) :
    (ofNames names).join q = ⟨(ofNames names).bytes ++ slash :: q.bytes⟩ := by
  have bytesNe : (ofNames names).bytes ≠ [] := by simp [bytes_ofNames]
  rw [join, if_neg (by simp [relative]),
    if_neg (not_or.2 ⟨bytesNe, getLast?_bytes_ofNames nonempty⟩)]

theorem join_ofNames_nil {q : Path} (relative : q.isAbsolute = false) :
    (ofNames []).join q = ⟨slash :: q.bytes⟩ := by
  rw [join, if_neg (by simp [relative]), if_pos (.inr rfl)]
  rfl

theorem pieces_ofNames {names : List Name} (nonempty : names ≠ []) :
    (ofNames names).pieces =
      ([], some .root) :: names.map fun name => (name.bytes, some (.name name)) := by
  have areSteps : ∀ c ∈ names.map Component.name, c.IsStep := Component.isStep_names names
  simp only [pieces, ofNames, segments_ofComponents areSteps (by simpa using nonempty),
    isAbsolute_ofComponents, ↓reduceIte, List.map_map]
  congr 1
  apply List.map_congr_left
  intro name _
  simp [Component.bytes, Component.ofMove?]

theorem below?_ofNames (base : List Name) {names : List Name} (nonempty : names ≠ []) :
    (ofNames base).below? (ofNames (base ++ names)) = some (below names) := by
  have isPrefix : (ofNames base).components.isPrefixOf (ofNames (base ++ names)).components := by
    simp
  have skipBase : ∀ (front : List Name) (after : List (Bytes × Option Component)),
      piecesAfter front.length
        ((front.map fun name => (name.bytes, some (Component.name name))) ++ after) =
          piecesAfter 0 after := by
    intro front after
    induction front with
    | nil => rfl
    | cons name rest ih => simpa [piecesAfter] using ih
  have kept : piecesAfter (ofNames base).components.length (ofNames (base ++ names)).pieces =
      names.map fun name => (name.bytes, some (.name name)) := by
    rw [components_ofNames, pieces_ofNames (by simp [nonempty]), List.length_cons, List.length_map,
      piecesAfter, List.dropWhile_cons_of_neg (by simp), List.tail_cons, List.map_append, skipBase,
      piecesAfter]
    apply trimBoth_eq_self
    · cases names <;> simp
    · intro piece mem
      rcases List.mem_map.1 (List.mem_of_getLast? mem) with ⟨name, -, rfl⟩
      rfl
  have written : below names = ⟨[slash].intercalate (names.map Name.bytes)⟩ :=
    congrArg Path.mk (bytes_below names)
  simp only [below?, if_pos isPrefix, kept, written]
  cases names with
  | nil => exact absurd rfl nonempty
  | cons name rest => cases rest <;> simp [Function.comp_def]

theorem moves_join_ofNames (names : List Name) {q : Path} (relative : q.isAbsolute = false) :
    ((ofNames names).join q).moves = .stay :: names.map .into ++ q.moves := by
  by_cases nonempty : names = []
  · subst nonempty
    simp only [join_ofNames_nil relative, moves, segments_of_slash]
    rfl
  · rw [join_ofNames nonempty relative, moves_append_cons_slash]
    exact congrArg (· ++ q.moves) (moves_ofNames nonempty)

theorem join_below (base : List Name) {names : List Name} (nonempty : names ≠ []) :
    (ofNames base).join (below names) = ofNames (base ++ names) := by
  by_cases atRoot : base = []
  · subst atRoot
    simp only [join_ofNames_nil (isAbsolute_below names), bytes_below, List.nil_append]
    simp only [ofNames, ofComponents, List.map_map]
    rfl
  · simp only [join_ofNames atRoot (isAbsolute_below names), bytes_below, bytes_ofNames]
    have joined : [slash].intercalate ((base ++ names).map Name.bytes) =
        [slash].intercalate (base.map Name.bytes) ++
          slash :: [slash].intercalate (names.map Name.bytes) := by
      rw [List.map_append,
        intercalate_append_of_ne_nil (by simpa using atRoot) (by simpa using nonempty)]
    have whole : ofNames (base ++ names) = ⟨(ofNames (base ++ names)).bytes⟩ := rfl
    rw [whole, bytes_ofNames, joined, List.cons_append]

theorem below_singleton (name : Name) : below [name] = ⟨name.bytes⟩ := by
  simp [below, ofComponents, Component.bytes]

theorem child_ofNames (names : List Name) (name : Name) :
    (ofNames names).child name = ofNames (names ++ [name]) := by
  rw [child, ← below_singleton, join_below names (by simp)]

theorem fileName?_ofNames (names : List Name) (name : Name) :
    (ofNames (names ++ [name])).fileName? = some name := by
  rw [fileName?, components_ofNames, List.map_append, List.map_cons, List.map_nil, ← List.cons_append,
    List.getLast?_concat]

theorem parent?_ofNames (names : List Name) (name : Name) :
    (ofNames (names ++ [name])).parent? = some (ofNames names) := by
  rw [parent?, components_ofNames, List.map_append, List.map_cons, List.map_nil, ← List.cons_append,
    List.getLast?_concat, List.dropLast_concat]
  rfl

end Path

end MarkdownLinks
